import DiagramDoc.Proofs.Diagram.Reconcile

/-!
# Which identifiers change

Reconciling gives another identifier to those entities alone whose own is missing or belongs to an
entity before them. These get the first free identifiers in a row, and nothing else about any entity
changes. So the diagrams that stay as they are are the valid ones.
-/

namespace DiagramDoc

namespace Claims

theorem getElem?_redrawn {seen ids : List Nat} {next i id : Nat} (h : ids[i]? = some id) :
    (redrawn seen next ids)[i]? =
      some (if id = EntityId.missing ∨ id ∈ seen ∨ id ∈ ids.take i then
        next + lost seen (ids.take i) else id) := by
  induction ids generalizing seen next i with
  | nil => cases h
  | cons first ids ih =>
    cases i with
    | zero =>
      obtain rfl : first = id := Option.some.inj h
      by_cases hid : first = EntityId.missing ∨ first ∈ seen
      · simp [redrawn, lost, hid]
      · rw [redrawn, if_neg hid]
        simp [not_or.mp hid]
    | succ i =>
      have hrest : ids[i]? = some id := h
      -- What was seen before the place is what was seen at the start and what comes before it.
      have hseen : (id ∈ first :: seen ∨ id ∈ ids.take i) ↔
          (id ∈ seen ∨ id ∈ (first :: ids).take (i + 1)) := by
        rw [List.take_succ_cons, List.mem_cons, List.mem_cons, or_assoc, or_left_comm]
      by_cases hid : first = EntityId.missing ∨ first ∈ seen
      · rw [redrawn, if_pos hid, List.getElem?_cons_succ, ih hrest,
          if_congr (or_congr_right hseen) rfl rfl, List.take_succ_cons, lost, if_pos hid,
            Nat.add_assoc]
      · rw [redrawn, if_neg hid, List.getElem?_cons_succ, ih hrest,
          if_congr (or_congr_right hseen) rfl rfl, List.take_succ_cons, lost, if_neg hid,
            Nat.zero_add]

end Claims

namespace Diagram

open Claims

/-- With the supply of identifiers not at its end, an entity keeps its identifier just if it has one
that no entity before it has; the others draw the first free ones in turn, and the counter moves
behind these. Everything else stays, and all of a diagram stays just if it is valid. -/
theorem reconcile_changes {d : Diagram} (h : d.nextId + d.entityIds.length < EntityId.largest) :
    d.reconcile.anonymous = d.anonymous ∧
      (∀ i id, d.entityIds[i]? = some id → ∃ id', d.reconcile.entityIds[i]? = some id' ∧
        (id' ≠ id ↔ id = EntityId.missing ∨ id ∈ d.entityIds.take i) ∧
        (id' ≠ id → id' = d.nextId + lost [] (d.entityIds.take i))) ∧
      d.reconcile.counter = d.nextId + lost [] d.entityIds ∧
      (d.reconcile = d ↔ d.Valid ∧ 1 ≤ d.counter) := by
  have hbound := settle_next_bound [] d.nextId d.entityIds
  have hl : (settle [] d.nextId d.entityIds).2 < EntityId.largest := by omega
  have hlt : ∀ id ∈ d.entityIds, id < d.nextId := fun id hid => lt_nextId hid (by omega)
  have hsettle : settle [] d.nextId d.entityIds =
      (redrawn [] d.nextId d.entityIds, d.nextId + lost [] d.entityIds) :=
    settle_eq_redrawn hl hlt fun _ _ _ => Iff.rfl
  obtain ⟨hvalid, hnext, hcounter⟩ := reconcile_spec hl
  have hpos := d.nextId_pos
  refine ⟨anonymous_reconcile d, fun i id hid => ?_, by rw [hcounter, hsettle], fun hsame => ?_,
    fun ⟨hv, hc⟩ => hv.reconcile_eq_self hc⟩
  · have hbelow := hlt id (List.mem_of_getElem? hid)
    rw [entityIds_reconcile, hsettle, getElem?_redrawn hid]
    simp only [List.not_mem_nil, false_or]
    refine ⟨_, rfl, ?_⟩
    split
    · next hlost => exact ⟨iff_of_true (by omega) hlost, fun _ => rfl⟩
    · next hkept => exact ⟨iff_of_false (fun hne => hne rfl) hkept, fun hne => absurd rfl hne⟩
  · rw [hsame] at hvalid hnext
    exact ⟨hvalid, by omega⟩

/-- Identifiers are missing or met again within a collection, in the next one and two charts on; an
edge leads from nowhere. -/
def ragged : Diagram where
  kind := .journey
  counter := 3
  flowchart :=
    { nodes := [{ id := 0, label := "A".toList }, { id := 5, label := "B".toList }]
      edges := [{ id := 5, source := 0, target := 5 }] }
  sequence := { participants := [⟨0, "User".toList⟩] }
  pie := { title := "t".toList, slices := [⟨7, "a".toList, 1, []⟩, ⟨7, "b".toList, 2, []⟩] }
  journey :=
    { steps := [{ id := 2, group := [], task := [] }, { id := 5, group := [], task := [] }] }

theorem reconcile_changes_ragged :
    ragged.nextId + ragged.entityIds.length < EntityId.largest ∧
      ragged.entityIds = [0, 5, 5, 0, 7, 7, 2, 5] ∧
      ragged.reconcile.anonymous = ragged.anonymous ∧ ragged.reconcile ≠ ragged ∧
      (∃ id, ragged.reconcile.entityIds[6]? = some id ∧ id = 2) ∧
      (∃ id, ragged.reconcile.entityIds[7]? = some id ∧ id = 12) ∧
      ragged.reconcile.counter = 13 := by
  have hbound : ragged.nextId + ragged.entityIds.length < EntityId.largest := by decide
  obtain ⟨hanonymous, hids, hcounter, hsame⟩ := reconcile_changes hbound
  obtain ⟨kept, hkept, hkeptiff, -⟩ := hids 6 2 rfl
  obtain ⟨drawn, hdrawn, hdrawniff, hdraws⟩ := hids 7 5 rfl
  exact ⟨hbound, rfl, hanonymous, fun h => absurd (hsame.mp h).1.distinct (by decide),
    ⟨kept, hkept, not_ne_iff.mp (mt hkeptiff.mp (by decide))⟩,
    ⟨drawn, hdrawn, hdraws (hdrawniff.mpr (by decide))⟩, hcounter⟩

end Diagram
end DiagramDoc
