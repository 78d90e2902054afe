import DiagramDoc.Proofs.Edit.Changes
import DiagramDoc.Proofs.Edit.Identifiers
import Mathlib.Data.List.Nodup
import Mathlib.Data.List.Pairwise

/-!
# What a batch changes

The record of a batch is exact. It lists what was added, dropped and updated, everything else is as
it was, and no collection is reordered: what is left of it comes first, then what the batch added,
as it was drawn.
-/

namespace DiagramDoc

/-! ### One collection -/

/-- A collection went on from another: what is left of it comes first, in the old order, and what
was drawn for it and stayed comes behind. Entities that are left and were no target did not change. -/
structure Traced (drawn targets : List Nat) (xs ys : List Item) : Prop where
  order : Item.ids ys =
    (Item.ids xs).filter (· ∈ Item.ids ys) ++ drawn.filter (· ∈ Item.ids ys)
  same : ∀ x ∈ xs, x.id ∈ Item.ids ys → x.id ∉ targets → x ∈ ys

namespace Traced

variable {drawn targets more others : List Nat} {xs ys zs : List Item}

theorem mem_or_mem (h : Traced drawn targets xs ys) {id : Nat} (hid : id ∈ Item.ids ys) :
    id ∈ Item.ids xs ∨ id ∈ drawn := by
  rw [h.order] at hid
  exact (List.mem_append.mp hid).imp List.mem_of_mem_filter List.mem_of_mem_filter

theorem mem_of_mem (h : Traced drawn targets xs ys) {id : Nat} (hid : id ∈ Item.ids ys)
    (hd : id ∉ drawn) : id ∈ Item.ids xs := (h.mem_or_mem hid).resolve_right hd

/-- What is drawn later is none of what was there or drawn before. -/
theorem trans (h : Traced drawn targets xs ys) (h' : Traced more others ys zs)
    (hx : ∀ id ∈ more, id ∉ Item.ids xs) (hd : ∀ id ∈ more, id ∉ drawn) :
    Traced (drawn ++ more) (targets ++ others) xs zs where
  order := by
    have hkeep : ∀ ids : List Nat, (∀ id ∈ ids, id ∉ more) →
        (ids.filter (· ∈ Item.ids ys)).filter (· ∈ Item.ids zs) =
          ids.filter (· ∈ Item.ids zs) := by
      intro ids hids
      rw [List.filter_filter]
      refine List.filter_congr fun id hid => ?_
      have hmid : id ∈ Item.ids zs → id ∈ Item.ids ys := fun hz => h'.mem_of_mem hz (hids id hid)
      grind
    have hmid := congrArg (List.filter (· ∈ Item.ids zs)) h.order
    rw [List.filter_append, hkeep _ fun id hid hm => hx id hm hid,
      hkeep _ fun id hid hm => hd id hm hid] at hmid
    rw [List.filter_append, ← List.append_assoc, ← hmid]
    exact h'.order
  same x hxs hz hn := by
    obtain ⟨ht, ho⟩ := not_or.mp (mt List.mem_append.mpr hn)
    have hid : x.id ∈ Item.ids xs := List.mem_map_of_mem hxs
    have hy : x.id ∈ Item.ids ys := h'.mem_of_mem hz fun hm => hx x.id hm hid
    exact h'.same x (h.same x hxs hy ht) hz ho

theorem of_sublist (hs : ys.Sublist xs) (hd : (Item.ids xs).Nodup) : Traced [] [] xs ys where
  order := by
    have hids : (Item.ids ys).Sublist (Item.ids xs) := hs.map Item.id
    have hle := hids.filter (· ∈ Item.ids ys)
    rw [List.filter_eq_self.mpr fun id hid => decide_eq_true hid] at hle
    have hperm : (Item.ids ys).Perm ((Item.ids xs).filter (· ∈ Item.ids ys)) := by
      refine (List.perm_ext_iff_of_nodup (hids.nodup hd) (hd.filter _)).mpr fun id => ?_
      rw [List.mem_filter, decide_eq_true_eq]
      exact ⟨fun hid => ⟨hids.subset hid, hid⟩, fun hid => hid.2⟩
    rw [List.filter_nil, List.append_nil]
    exact hle.eq_of_length hperm.length_eq
  same x hx hid _ := by
    obtain ⟨y, hy, heq⟩ := List.mem_map.mp hid
    cases List.inj_on_of_nodup_map hd (hs.subset hy) hx heq
    exact hy

theorem of_ids_eq (hi : Item.ids ys = Item.ids xs) (hs : ∀ x ∈ xs, x.id ∉ targets → x ∈ ys) :
    Traced [] targets xs ys where
  order := by
    rw [List.filter_nil, List.append_nil, hi]
    exact (List.filter_eq_self.mpr fun id hid => decide_eq_true hid).symm
  same x hx _ hn := hs x hx hn

theorem push (x : Item) : Traced [x.id] targets xs (xs ++ [x]) where
  order := by
    have hx : Item.ids [x] = [x.id] := rfl
    rw [Item.ids_append, hx]
    congr 1
    · exact (List.filter_eq_self.mpr fun id hid => decide_eq_true (List.mem_append_left _ hid)).symm
    · exact (List.filter_eq_self.mpr fun id hid =>
        decide_eq_true (List.mem_append_right _ hid)).symm
  same y hy _ _ := List.mem_append_left _ hy

/-- A collection that nothing was drawn for stays as it is. -/
theorem unmoved (h : ∀ id ∈ drawn, id ∉ Item.ids xs) : Traced drawn targets xs xs where
  order := by
    rw [List.filter_eq_self.mpr fun id hid => decide_eq_true hid,
      List.filter_eq_nil_iff.mpr fun id hid => by simpa using h id hid, List.append_nil]
  same x hx _ _ := hx

end Traced

/-! ### One edit -/

namespace Diagram

theorem Valid.ids_nodup {d : Diagram} (hv : d.Valid) (sort : EntitySort) :
    (Item.ids (d.itemsOf sort)).Nodup := by
  have hd := hv.distinct
  rw [entityIds_eq_flatMap] at hd
  exact (List.nodup_flatMap.mp hd).1 sort sort.mem_all

/-- No identifier is in two collections. -/
theorem Valid.sort_unique {d : Diagram} (hv : d.Valid) {id : Nat} {sort sort' : EntitySort}
    (h : id ∈ Item.ids (d.itemsOf sort)) (h' : id ∈ Item.ids (d.itemsOf sort')) : sort = sort' := by
  have hd := hv.distinct
  rw [entityIds_eq_flatMap] at hd
  have hsymm : Std.Symm (Function.onFun List.Disjoint fun sort => Item.ids (d.itemsOf sort)) :=
    ⟨fun _ _ hs _ h h' => hs h' h⟩
  by_contra hne
  exact (List.nodup_flatMap.mp hd).2.forall sort.mem_all sort'.mem_all hne h h'

end Diagram

namespace Edit

theorem target?_of_adds {edit : Edit} (h : edit.adds = true) : edit.target? = none := by
  cases edit with
  | flowchart edit => cases edit <;> first | rfl | cases h
  | sequence edit => cases edit <;> first | rfl | cases h
  | pie edit => cases edit <;> first | rfl | cases h
  | gantt edit => cases edit <;> first | rfl | cases h
  | journey edit => cases edit <;> first | rfl | cases h
  | setKind kind => rfl

end Edit

namespace Edited

open Diagram

theorem Adds.fresh {e e' : Edited} (h : Adds e e') (hl : e'.diagram.counter < EntityId.largest) :
    e.diagram.nextId ∉ e.diagram.entityIds := by
  have hn := EntityId.lt_largest_of_successor (h.counter ▸ hl)
  exact fun hm => Nat.lt_irrefl _ (lt_nextId hm hn)

theorem apply_sound {e e' : Edited} {edit : Edit} (h : e.apply edit = .ok e')
    (hv : e.diagram.Valid) (hl : e'.diagram.counter < EntityId.largest) :
    e'.diagram.Valid ∧ ∀ id ∈ if edit.adds then [e.diagram.nextId] else [],
      id < e'.diagram.counter := by
  have heffect := apply_effect h
  unfold Effect at heffect
  split at heffect
  · next hadds =>
    obtain ⟨hv', hc⟩ := heffect.valid hv hl
    rw [if_pos hadds]
    exact ⟨hv', List.forall_mem_singleton.mpr (by omega)⟩
  · next hadds =>
    rw [if_neg hadds]
    exact ⟨heffect.valid hv, fun id hid => absurd hid List.not_mem_nil⟩

section Step

variable {e e' : Edited} {edit : Edit} (h : Does edit e e') (hv : e.diagram.Valid)

include h hv

theorem Does.traced (hl : e'.diagram.counter < EntityId.largest) (sort : EntitySort) :
    Traced (if edit.adds then [e.diagram.nextId] else []) edit.target?.toList
      (e.diagram.itemsOf sort) (e'.diagram.itemsOf sort) := by
  unfold Does at h
  split at h
  · next hadds =>
    obtain ⟨place, x, hx, hitems⟩ := h.items
    rw [if_pos hadds, hitems]
    split
    · rw [← hx]
      exact Traced.push x
    · refine Traced.unmoved (List.forall_mem_singleton.mpr fun hm => h.fresh hl ?_)
      exact mem_entityIds_iff.mpr ⟨sort, hm⟩
  · next hadds =>
    rw [if_neg hadds]
    split at h
    · next id ht =>
      rw [ht]
      exact Traced.of_ids_eq (h.ids sort) fun x hx hn => h.items sort x hx (by simpa using hn)
    · next ht =>
      obtain ⟨gone, hg⟩ := h
      rw [ht]
      exact Traced.of_sublist (hg.items sort) (hv.ids_nodup sort)

/-- The record goes on to be exact, as the identifiers that were there before are never drawn. -/
theorem Does.tells {before targets : List Nat} (hb : ∀ id ∈ before, id < e.diagram.counter)
    (ht : e.changes.Tells before e.diagram.entityIds targets) :
    e'.changes.Tells before e'.diagram.entityIds (targets ++ edit.target?.toList) := by
  unfold Does at h
  split at h
  · next hadds =>
    have hnew : e.diagram.nextId ∉ before := fun hm => by
      have hlt := hb _ hm
      have hle := counter_le_nextId e.diagram
      omega
    rw [Edit.target?_of_adds hadds, Option.toList_none, List.append_nil, h.changes]
    exact (ht.recordAdded hnew).congr fun id => h.ids.mem_iff
  · split at h
    · next id htarget =>
      rw [htarget, Option.toList_some, h.changes, entityIds_congr h.ids]
      exact ht.recordUpdated h.mem
    · next htarget =>
      obtain ⟨gone, hg⟩ := h
      obtain ⟨hgone, -, hdisjoint⟩ := List.nodup_append.mp (hg.ids.nodup_iff.mp hv.distinct)
      have hmem : ∀ id, id ∈ e.diagram.entityIds ↔ id ∈ gone ∨ id ∈ e'.diagram.entityIds :=
        fun id => hg.ids.mem_iff.trans List.mem_append
      rw [htarget, Option.toList_none, List.append_nil, hg.changes]
      refine (ht.recordRemovedAll hgone fun id hid => (hmem id).mpr (.inl hid)).congr fun id => ?_
      rw [List.mem_filter, decide_eq_true_eq, hmem]
      constructor
      · exact fun hid => ⟨.inr hid, fun hm => hdisjoint id hm id hid rfl⟩
      · exact fun ⟨hor, hn⟩ => hor.resolve_left hn

end Step

/-! ### A batch -/

section Run

variable {e e' : Edited} {edits : List Edit} (h : e.applyAll edits = .ok e')
  (hv : e.diagram.Valid) (hl : e'.diagram.counter < EntityId.largest)

include h hv hl

theorem applyAll_traced (sort : EntitySort) :
    Traced (e.drawn edits) (edits.filterMap Edit.target?) (e.diagram.itemsOf sort)
      (e'.diagram.itemsOf sort) := by
  induction edits generalizing e with
  | nil =>
    cases h
    exact Traced.unmoved fun id hid => absurd hid List.not_mem_nil
  | cons edit edits ih =>
    obtain ⟨f, hf, hr⟩ := ok_of_bind h
    have hfl : f.diagram.counter < EntityId.largest :=
      Nat.lt_of_le_of_lt (applyAll_grows hr hl) hl
    have hgrow := apply_grows hf hfl
    obtain ⟨hfv, hnow⟩ := apply_sound hf hv hfl
    have hlater := (applyAll_sound hr hfv hl).2.1
    simp only [drawn, hf]
    rw [List.filterMap_eq_flatMap_toList, List.flatMap_cons, ← List.filterMap_eq_flatMap_toList]
    have hstep := (apply_does hf).traced hv hfl sort
    refine hstep.trans (ih hr hfv) (fun id hid hm => ?_) fun id hid hm => ?_
    · have hlt := hv.below id (mem_entityIds_iff.mpr ⟨sort, hm⟩)
      have hge := (hlater id hid).1
      omega
    · have hlt := hnow id hm
      have hge := (hlater id hid).1
      omega

theorem applyAll_tells {before targets : List Nat}
    (hb : ∀ id ∈ before, id < e.diagram.counter)
    (ht : e.changes.Tells before e.diagram.entityIds targets) :
    e'.changes.Tells before e'.diagram.entityIds (targets ++ edits.filterMap Edit.target?) := by
  induction edits generalizing e targets with
  | nil =>
    cases h
    rwa [List.filterMap_nil, List.append_nil]
  | cons edit edits ih =>
    obtain ⟨f, hf, hr⟩ := ok_of_bind h
    have hfl : f.diagram.counter < EntityId.largest :=
      Nat.lt_of_le_of_lt (applyAll_grows hr hl) hl
    have hgrow := apply_grows hf hfl
    have hstep := (apply_does hf).tells hv hb ht
    have hrun := ih hr (apply_sound hf hv hfl).1 (fun id hid => Nat.lt_of_lt_of_le (hb id hid) hgrow) hstep
    rw [List.filterMap_eq_flatMap_toList, List.flatMap_cons, ← List.filterMap_eq_flatMap_toList,
      ← List.append_assoc]
    exact hrun

end Run
end Edited

/-- What a batch made of a diagram: a valid one, whose record tells how the two differ. An entity
that stayed and is not listed as updated is as it was, and each collection holds what is left of it
in the old order, then what the batch drew for it. -/
structure BatchOutcome.Exact (o : BatchOutcome) (d : Diagram) (edits : List Edit) : Prop where
  valid : o.diagram.Valid
  tells : o.changes.Tells d.entityIds o.diagram.entityIds (edits.filterMap Edit.target?)
  same : ∀ sort, ∀ x ∈ d.itemsOf sort, x.id ∈ o.diagram.entityIds → x.id ∉ o.changes.updated →
    x ∈ o.diagram.itemsOf sort
  order : ∀ sort, Item.ids (o.diagram.itemsOf sort) =
    (Item.ids (d.itemsOf sort)).filter (· ∈ o.diagram.entityIds) ++
      (Edited.drawn { diagram := d } edits).filter (· ∈ Item.ids (o.diagram.itemsOf sort))

namespace Diagram

/-- The changes that an accepted batch reports are exact. -/
theorem applyEdits_exact {d : Diagram} {edits : List Edit} {o : BatchOutcome} (hv : d.Valid)
    (h : d.applyEdits edits = .ok o) (hl : o.diagram.counter < EntityId.largest) :
    o.Exact d edits := by
  obtain ⟨e, he, rfl⟩ := applyEdits_eq_ok h
  obtain ⟨hev, hdrawn, -⟩ := Edited.applyAll_sound he hv hl
  have htraced := Edited.applyAll_traced he hv hl
  have htells : e.changes.Tells d.entityIds e.diagram.entityIds (edits.filterMap Edit.target?) :=
    Edited.applyAll_tells he hv hl hv.below (Changes.tells_nothing d.entityIds)
  -- What is left of a collection is in no other one: identifiers that are drawn are new.
  have hleft : ∀ sort, ∀ id ∈ Item.ids (d.itemsOf sort),
      id ∈ e.diagram.entityIds ↔ id ∈ Item.ids (e.diagram.itemsOf sort) := by
    intro sort id hid
    refine ⟨fun hm => ?_, fun hm => mem_entityIds_iff.mpr ⟨sort, hm⟩⟩
    obtain ⟨place, hplace⟩ := mem_entityIds_iff.mp hm
    have hold : id ∉ Edited.drawn { diagram := d } edits := fun hd => by
      have hge : d.counter ≤ id := (hdrawn id hd).1
      have hlt := hv.below id (mem_entityIds_iff.mpr ⟨sort, hid⟩)
      omega
    cases hv.sort_unique hid ((htraced place).mem_of_mem hplace hold)
    exact hplace
  refine ⟨hev, htells, fun sort x hx hm hn => ?_, fun sort => ?_⟩
  · have hid : x.id ∈ Item.ids (d.itemsOf sort) := List.mem_map_of_mem hx
    refine (htraced sort).same x hx ((hleft sort x.id hid).mp hm) fun ht => hn ?_
    exact (htells.mem_updated x.id).mpr ⟨mem_entityIds_iff.mpr ⟨sort, hid⟩, hm, ht⟩
  · have hfilter : (Item.ids (d.itemsOf sort)).filter (· ∈ e.diagram.entityIds) =
        (Item.ids (d.itemsOf sort)).filter (· ∈ Item.ids (e.diagram.itemsOf sort)) :=
      List.filter_congr fun id hid => decide_eq_decide.mpr (hleft sort id hid)
    rw [hfilter]
    exact (htraced sort).order

def board : Diagram where
  counter := 10
  flowchart :=
    { nodes :=
        [{ id := 2, label := "B".toList }, { id := 1, label := "A".toList },
         { id := 3, label := "C".toList }]
      edges :=
        [{ id := 4, source := 1, target := 2 }, { id := 7, source := 1, target := 3 },
         { id := 5, source := 2, target := 3 }] }
  sequence := { participants := [⟨6, "User".toList⟩] }

/-- Updates an entity that is dropped later, one that the batch added, and two that stay; drops a
node with its edges, and an entity that the batch added. -/
def boardEdits : List Edit :=
  [.flowchart (.moveNode 2 5 5),
   .flowchart (.addNode none .process 0 0),
   .sequence (.renameParticipant 6 "Admin".toList),
   .flowchart (.addEdge 10 1 [] .thick),
   .flowchart (.updateNode 10 { label := some "D".toList }),
   .flowchart (.removeNodes [2]),
   .pie (.addSlice none 1),
   .flowchart (.updateEdge 7 { target := some 10 }),
   .pie (.removeSlice 12),
   .gantt (.addTask none none)]

def boardOutcome : BatchOutcome where
  diagram :=
    { counter := 14
      flowchart :=
        { nodes :=
            [{ id := 1, label := "A".toList }, { id := 3, label := "C".toList },
             { id := 10, label := "D".toList }]
          edges :=
            [{ id := 7, source := 1, target := 10 },
             { id := 11, source := 10, target := 1, arrow := .thick }] }
      sequence := { participants := [⟨6, "Admin".toList⟩] }
      gantt := { tasks := [{ id := 13, group := "Phase".toList, label := "Task 13".toList }] } }
  changes := { added := [10, 11, 13], removed := [2, 4, 5], updated := [6, 7] }
  applied := 10

theorem applyEdits_exact_board :
    board.applyEdits boardEdits = .ok boardOutcome ∧ boardOutcome.Exact board boardEdits := by
  have h : board.applyEdits boardEdits = .ok boardOutcome := by rfl
  exact ⟨h, applyEdits_exact ⟨by decide, by decide, by decide⟩ h (by decide)⟩

end Diagram
end DiagramDoc
