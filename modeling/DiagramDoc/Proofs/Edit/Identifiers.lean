import DiagramDoc.Proofs.Edit.Effect

/-!
# What edits do to identifiers

An edit that adds an entity draws the first free identifier for it. Every other edit leaves the
counter alone and at most drops identifiers. So a batch keeps a diagram valid, and what it draws was
free before.
-/

namespace DiagramDoc

namespace Edited

open Diagram

/-- The first free identifier was drawn for a new entity. -/
structure Draws (e e' : Edited) : Prop where
  ids : e'.diagram.entityIds.Perm (e.diagram.nextId :: e.diagram.entityIds)
  counter : e'.diagram.counter = EntityId.successor e.diagram.nextId

structure Keeps (e e' : Edited) : Prop where
  ids : e'.diagram.entityIds.Sublist e.diagram.entityIds
  counter : e'.diagram.counter = e.diagram.counter

/-- An edit draws an identifier when it adds an entity, and none otherwise. -/
def Effect (adds : Bool) (e e' : Edited) : Prop := if adds then Draws e e' else Keeps e e'

theorem Does.effect {e e' : Edited} {edit : Edit} (h : Does edit e e') :
    Effect edit.adds e e' := by
  unfold Does at h
  unfold Effect
  split at h
  · next hadds =>
    rw [if_pos hadds]
    exact ⟨h.ids, h.counter⟩
  · next hadds =>
    rw [if_neg hadds]
    split at h
    · exact ⟨entityIds_congr h.ids ▸ List.Sublist.refl _, h.counter⟩
    · obtain ⟨gone, hg⟩ := h
      exact ⟨entityIds_sublist hg.items, hg.counter⟩

theorem apply_effect {e e' : Edited} {edit : Edit} (h : e.apply edit = .ok e') :
    Effect edit.adds e e' := (apply_does h).effect

/-! ### Batches -/

/-- The identifiers that the additions of a batch draw, in turn. -/
def drawn (e : Edited) : List Edit → List Nat
  | [] => []
  | edit :: edits =>
    match e.apply edit with
    | .ok e' => (if edit.adds then [e.diagram.nextId] else []) ++ e'.drawn edits
    | .error _ => []

theorem apply_grows {e e' : Edited} {edit : Edit} (h : e.apply edit = .ok e')
    (hl : e'.diagram.counter < EntityId.largest) : e.diagram.counter ≤ e'.diagram.counter := by
  have he := apply_effect h
  unfold Effect at he
  split at he
  · have hc := he.counter
    have hs := EntityId.successor_eq_of_lt (hc ▸ hl)
    have hn := counter_le_nextId e.diagram
    omega
  · exact Nat.le_of_eq he.counter.symm

theorem applyAll_grows {e e' : Edited} {edits : List Edit} (h : e.applyAll edits = .ok e')
    (hl : e'.diagram.counter < EntityId.largest) : e.diagram.counter ≤ e'.diagram.counter := by
  induction edits generalizing e with
  | nil =>
    cases h
    exact Nat.le_refl _
  | cons edit edits ih =>
    obtain ⟨f, hf, hr⟩ := ok_of_bind h
    have hfe := ih hr
    exact Nat.le_trans (apply_grows hf (Nat.lt_of_le_of_lt hfe hl)) hfe

theorem Draws.valid {e e' : Edited} (h : Draws e e') (hv : e.diagram.Valid)
    (hl : e'.diagram.counter < EntityId.largest) :
    e'.diagram.Valid ∧ e'.diagram.counter = e.diagram.nextId + 1 := by
  have hc := h.counter
  have hs := EntityId.successor_eq_of_lt (hc ▸ hl)
  have hlt : ∀ id ∈ e.diagram.entityIds, id < e.diagram.nextId :=
    fun id hid => lt_nextId hid (by omega)
  have hnew : e.diagram.nextId ∉ e.diagram.entityIds := fun hm => Nat.lt_irrefl _ (hlt _ hm)
  refine ⟨⟨?_, ?_, ?_⟩, hc.trans hs⟩
  · intro id hid
    rcases List.mem_cons.mp (h.ids.mem_iff.mp hid) with he | hm
    · exact he ▸ Nat.ne_of_gt e.diagram.nextId_pos
    · exact hv.present id hm
  · exact h.ids.nodup_iff.mpr (List.nodup_cons.mpr ⟨hnew, hv.distinct⟩)
  · intro id hid
    rcases List.mem_cons.mp (h.ids.mem_iff.mp hid) with he | hm
    · omega
    · have hb := hlt id hm
      omega

theorem Keeps.valid {e e' : Edited} (h : Keeps e e') (hv : e.diagram.Valid) :
    e'.diagram.Valid where
  present id hid := hv.present id (h.ids.subset hid)
  distinct := h.ids.nodup hv.distinct
  below id hid := h.counter ▸ hv.below id (h.ids.subset hid)

/-- A batch keeps a diagram valid, and draws distinct identifiers that were free before. -/
theorem applyAll_sound {e e' : Edited} {edits : List Edit} (h : e.applyAll edits = .ok e')
    (hv : e.diagram.Valid) (hl : e'.diagram.counter < EntityId.largest) :
    e'.diagram.Valid ∧
      (∀ id ∈ e.drawn edits, e.diagram.counter ≤ id ∧ id < e'.diagram.counter) ∧
      (e.drawn edits).Nodup := by
  induction edits generalizing e with
  | nil =>
    cases h
    exact ⟨hv, fun id hid => (List.not_mem_nil hid).elim, List.nodup_nil⟩
  | cons edit edits ih =>
    obtain ⟨f, hf, hr⟩ := ok_of_bind h
    have hfe := applyAll_grows hr hl
    have hfl : f.diagram.counter < EntityId.largest := Nat.lt_of_le_of_lt hfe hl
    have heffect := apply_effect hf
    simp only [drawn, hf]
    unfold Effect at heffect
    split at heffect
    · next hadds =>
      -- The edits after an addition draw above the identifier that it drew.
      obtain ⟨hfv, hfc⟩ := heffect.valid hv hfl
      obtain ⟨hev, hd, hnodup⟩ := ih hr hfv
      have hn := counter_le_nextId e.diagram
      rw [if_pos hadds]
      refine ⟨hev, List.forall_mem_cons.mpr ⟨⟨hn, by omega⟩, fun id hid => ?_⟩, ?_⟩
      · have hb := hd id hid
        omega
      · refine List.nodup_cons.mpr ⟨fun hm => ?_, hnodup⟩
        have hb := hd _ hm
        omega
    · next hadds =>
      obtain ⟨hev, hd, hnodup⟩ := ih hr (heffect.valid hv)
      rw [if_neg hadds, List.nil_append]
      rw [heffect.counter] at hd
      exact ⟨hev, hd, hnodup⟩

end Edited

theorem Diagram.applyEdits_eq_ok {d : Diagram} {edits : List Edit} {o : BatchOutcome}
    (h : d.applyEdits edits = .ok o) :
    ∃ e, Edited.applyAll { diagram := d } edits = .ok e ∧
      o = ⟨e.diagram, e.changes, edits.length⟩ := by
  unfold applyEdits at h
  cases he : Edited.applyAll { diagram := d } edits with
  | error _ => simp [he, Except.map] at h
  | ok e =>
    rw [he] at h
    exact ⟨e, rfl, (Except.ok.inj h).symm⟩

end DiagramDoc
