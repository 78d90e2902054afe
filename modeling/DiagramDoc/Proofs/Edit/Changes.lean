import DiagramDoc.Edit.Changes
import Mathlib.Data.List.Sort

/-!
# What a record of changes tells

The three lists of a record stay increasing. They hold what is new, what is gone, and which of the
entities that were there all along were the target of an edit. While nothing is new, it does not
matter in which order the other changes are recorded.
-/

namespace DiagramDoc.Changes

theorem pairwise_insert {id : Nat} {xs : List Nat} (h : xs.Pairwise (· < ·)) :
    (insert id xs).Pairwise (· < ·) := by
  induction xs with
  | nil => exact List.pairwise_singleton _ _
  | cons x xs ih =>
    obtain ⟨hx, hxs⟩ := List.pairwise_cons.mp h
    rw [insert]
    split
    · next hlt =>
      refine List.pairwise_cons.mpr ⟨List.forall_mem_cons.mpr ⟨hlt, fun y hy => ?_⟩, h⟩
      exact Nat.lt_trans hlt (hx y hy)
    · split
      · exact h
      · refine List.pairwise_cons.mpr ⟨fun y hy => ?_, ih hxs⟩
        rcases mem_insert.mp hy with rfl | hy
        · omega
        · exact hx y hy

theorem pairwise_erase {id : Nat} {xs : List Nat} (h : xs.Pairwise (· < ·)) :
    (erase id xs).Pairwise (· < ·) := h.filter _

/-- The identifiers were those of `before` and are those of `now`; `targets` were edited. -/
structure Tells (before now targets : List Nat) (c : Changes) : Prop where
  added_lt : c.added.Pairwise (· < ·)
  removed_lt : c.removed.Pairwise (· < ·)
  updated_lt : c.updated.Pairwise (· < ·)
  mem_added : ∀ id, id ∈ c.added ↔ id ∈ now ∧ id ∉ before
  mem_removed : ∀ id, id ∈ c.removed ↔ id ∈ before ∧ id ∉ now
  mem_updated : ∀ id, id ∈ c.updated ↔ id ∈ before ∧ id ∈ now ∧ id ∈ targets

theorem tells_nothing (ids : List Nat) : Tells ids ids [] {} := by
  constructor <;> simp

section Tells

variable {before now targets : List Nat} {c : Changes} (h : Tells before now targets c)

include h

theorem Tells.congr {now' : List Nat} (hnow : ∀ id, id ∈ now' ↔ id ∈ now) :
    Tells before now' targets c where
  added_lt := h.added_lt
  removed_lt := h.removed_lt
  updated_lt := h.updated_lt
  mem_added id := by rw [h.mem_added, hnow]
  mem_removed id := by rw [h.mem_removed, hnow]
  mem_updated id := by rw [h.mem_updated, hnow]

/-- An identifier that was never used is only new. -/
theorem Tells.recordAdded {new : Nat} (hb : new ∉ before) :
    Tells before (new :: now) targets (c.recordAdded new) where
  added_lt := pairwise_insert h.added_lt
  removed_lt := pairwise_erase h.removed_lt
  updated_lt := pairwise_erase h.updated_lt
  mem_added id := by
    rw [Changes.recordAdded, mem_insert, h.mem_added, List.mem_cons]
    grind
  mem_removed id := by
    rw [Changes.recordAdded, mem_erase, h.mem_removed, List.mem_cons]
    grind
  mem_updated id := by
    rw [Changes.recordAdded, mem_erase, h.mem_updated, List.mem_cons]
    grind

/-- One that is in use is gone afterwards: it leaves a trace if it was there before. -/
theorem Tells.recordRemoved {old : Nat} (hn : old ∈ now) :
    Tells before (now.filter (· ≠ old)) targets (c.recordRemoved old) where
  added_lt := pairwise_erase h.added_lt
  removed_lt := by
    unfold Changes.recordRemoved
    dsimp only
    split
    · exact h.removed_lt
    · exact pairwise_insert h.removed_lt
  updated_lt := pairwise_erase h.updated_lt
  mem_added id := by
    rw [Changes.recordRemoved, mem_erase, h.mem_added, List.mem_filter, decide_eq_true_eq]
    grind
  mem_removed id := by
    have hadded := h.mem_added old
    have hremoved := h.mem_removed id
    unfold Changes.recordRemoved
    dsimp only
    rw [List.mem_filter, decide_eq_true_eq]
    split
    · grind
    · rw [mem_insert]
      grind
  mem_updated id := by
    rw [Changes.recordRemoved, mem_erase, h.mem_updated, List.mem_filter, decide_eq_true_eq]
    grind

theorem Tells.recordUpdated {id : Nat} (hn : id ∈ now) :
    Tells before now (targets ++ [id]) (c.recordUpdated id) := by
  have hadded := h.mem_added id
  have hremoved := h.mem_removed id
  unfold Changes.recordUpdated
  split
  · refine ⟨h.added_lt, h.removed_lt, h.updated_lt, h.mem_added, h.mem_removed, fun a => ?_⟩
    rw [h.mem_updated, List.mem_append, List.mem_singleton]
    grind
  · refine ⟨h.added_lt, h.removed_lt, pairwise_insert h.updated_lt, h.mem_added, h.mem_removed,
      fun a => ?_⟩
    rw [mem_insert, h.mem_updated, List.mem_append, List.mem_singleton]
    grind

end Tells

/-- Several that go together are different ones, so each is still in use when its turn comes. -/
theorem Tells.recordRemovedAll {before now targets gone : List Nat} {c : Changes}
    (h : Tells before now targets c) (hd : gone.Nodup) (hn : ∀ id ∈ gone, id ∈ now) :
    Tells before (now.filter (· ∉ gone)) targets (gone.foldl Changes.recordRemoved c) := by
  induction gone generalizing now c with
  | nil => exact h.congr fun a => by simp
  | cons id gone ih =>
    obtain ⟨hid, hn⟩ := List.forall_mem_cons.mp hn
    obtain ⟨hnew, hd⟩ := List.nodup_cons.mp hd
    have hrest : ∀ a ∈ gone, a ∈ now.filter (· ≠ id) := by
      intro a ha
      have hne : a ≠ id := fun he => hnew (he ▸ ha)
      simpa using ⟨hn a ha, hne⟩
    refine (ih (h.recordRemoved hid) hd hrest).congr fun a => ?_
    simp only [List.mem_filter, decide_eq_true_eq, List.mem_cons]
    grind

/-! ### Records without additions -/

/-- What can be recorded of an entity that is not new. -/
inductive Event where
  | updated (id : Nat)
  | removed (id : Nat)

def record (c : Changes) : Event → Changes
  | .updated id => c.recordUpdated id
  | .removed id => c.recordRemoved id

/-- Nothing was added, and the other two lists are increasing. -/
structure NothingNew (c : Changes) : Prop where
  added : c.added = []
  removed_lt : c.removed.Pairwise (· < ·)
  updated_lt : c.updated.Pairwise (· < ·)

theorem nothingNew : NothingNew {} := ⟨rfl, List.Pairwise.nil, List.Pairwise.nil⟩

theorem NothingNew.ext {c c' : Changes} (h : NothingNew c) (h' : NothingNew c')
    (hremoved : ∀ id, id ∈ c.removed ↔ id ∈ c'.removed)
    (hupdated : ∀ id, id ∈ c.updated ↔ id ∈ c'.updated) : c = c' := by
  obtain ⟨added, removed, updated⟩ := c
  obtain ⟨added', removed', updated'⟩ := c'
  obtain rfl : added = [] := h.added
  obtain rfl : added' = [] := h'.added
  obtain rfl : removed = removed' := h.removed_lt.eq_of_mem_iff h'.removed_lt hremoved
  obtain rfl : updated = updated' := h.updated_lt.eq_of_mem_iff h'.updated_lt hupdated
  rfl

section NothingNew

variable {c : Changes} (h : NothingNew c)

include h

theorem NothingNew.recordRemoved_eq (id : Nat) :
    c.recordRemoved id = ⟨[], insert id c.removed, erase id c.updated⟩ := by
  unfold recordRemoved
  rw [h.added, if_neg List.not_mem_nil]
  rfl

theorem NothingNew.recordUpdated_eq (id : Nat) :
    c.recordUpdated id =
      ⟨[], c.removed, if id ∈ c.removed then c.updated else insert id c.updated⟩ := by
  obtain ⟨added, removed, updated⟩ := c
  obtain rfl : added = [] := h.added
  unfold recordUpdated
  by_cases hid : id ∈ removed
  · rw [if_pos (.inr hid), if_pos hid]
  · rw [if_neg (fun hor => hor.elim List.not_mem_nil hid), if_neg hid]

theorem NothingNew.after (event : Event) : NothingNew (c.record event) := by
  cases event with
  | updated id =>
    rw [Changes.record, h.recordUpdated_eq]
    refine ⟨rfl, h.removed_lt, ?_⟩
    dsimp only
    split
    · exact h.updated_lt
    · exact pairwise_insert h.updated_lt
  | removed id =>
    rw [Changes.record, h.recordRemoved_eq]
    exact ⟨rfl, pairwise_insert h.removed_lt, pairwise_erase h.updated_lt⟩

theorem NothingNew.mem_removed_record {event : Event} {id : Nat} :
    id ∈ (c.record event).removed ↔ event = .removed id ∨ id ∈ c.removed := by
  cases event with
  | updated other => simp [Changes.record, h.recordUpdated_eq]
  | removed other => simp [Changes.record, h.recordRemoved_eq, mem_insert, eq_comm]

/-- Whether an entity is recorded as removed has the last word on it, now or later. -/
theorem NothingNew.mem_updated_record {event : Event} {id : Nat} :
    id ∈ (c.record event).updated ↔
      event ≠ .removed id ∧ (id ∈ c.updated ∨ event = .updated id ∧ id ∉ c.removed) := by
  cases event with
  | updated other =>
    rw [Changes.record, h.recordUpdated_eq]
    dsimp only
    split
    · grind
    · rw [mem_insert]
      grind
  | removed other =>
    rw [Changes.record, h.recordRemoved_eq, mem_erase]
    grind

theorem NothingNew.record_comm (a b : Event) : (c.record a).record b = (c.record b).record a := by
  have ha := h.after a
  have hb := h.after b
  refine (ha.after b).ext (hb.after a) (fun id => ?_) fun id => ?_
  · rw [ha.mem_removed_record, hb.mem_removed_record, h.mem_removed_record, h.mem_removed_record,
      or_left_comm]
  · rw [ha.mem_updated_record, hb.mem_updated_record, h.mem_updated_record, h.mem_updated_record,
      h.mem_removed_record, h.mem_removed_record]
    grind

end NothingNew

theorem NothingNew.foldl {c : Changes} (h : NothingNew c) (events : List Event) :
    NothingNew (events.foldl record c) := by
  induction events generalizing c with
  | nil => exact h
  | cons event events ih => exact ih (h.after event)

theorem NothingNew.foldl_record {c : Changes} (h : NothingNew c) (a : Event) (events : List Event) :
    events.foldl record (c.record a) = (events.foldl record c).record a := by
  induction events generalizing c with
  | nil => rfl
  | cons b events ih => rw [List.foldl_cons, List.foldl_cons, h.record_comm, ih (h.after b)]

theorem NothingNew.foldl_comm {c : Changes} (h : NothingNew c) (as bs : List Event) :
    bs.foldl record (as.foldl record c) = as.foldl record (bs.foldl record c) := by
  induction as generalizing c with
  | nil => rfl
  | cons a as ih => rw [List.foldl_cons, List.foldl_cons, ih (h.after a), h.foldl_record]

/-! ### Records of removals -/

theorem mem_foldl_insert {id : Nat} {ids xs : List Nat} :
    id ∈ ids.foldl (fun xs id => insert id xs) xs ↔ id ∈ ids ∨ id ∈ xs := by
  induction ids generalizing xs with
  | nil => simp
  | cons a ids ih => rw [List.foldl_cons, ih, mem_insert, List.mem_cons, or_left_comm, or_assoc]

theorem pairwise_foldl_insert {xs : List Nat} (h : xs.Pairwise (· < ·)) (ids : List Nat) :
    (ids.foldl (fun xs id => insert id xs) xs).Pairwise (· < ·) := by
  induction ids generalizing xs with
  | nil => exact h
  | cons id ids ih => exact ih (pairwise_insert h)

theorem foldl_recordRemoved (gone xs : List Nat) :
    gone.foldl recordRemoved { removed := xs } =
      { removed := gone.foldl (fun xs id => insert id xs) xs } := by
  induction gone generalizing xs with
  | nil => rfl
  | cons id gone ih => exact ih (insert id xs)

/-- When nothing else is recorded, the record is the increasing list of what is gone. -/
theorem foldl_recordRemoved_eq {gone removed : List Nat} (hlt : removed.Pairwise (· < ·))
    (hmem : ∀ id, id ∈ removed ↔ id ∈ gone) :
    gone.foldl recordRemoved {} = { removed := removed } := by
  have hsame : gone.foldl (fun xs id => insert id xs) [] = removed := by
    refine (pairwise_foldl_insert List.Pairwise.nil gone).eq_of_mem_iff hlt fun id => ?_
    rw [mem_foldl_insert, hmem, or_iff_left List.not_mem_nil]
  rw [← hsame]
  exact foldl_recordRemoved gone []

end DiagramDoc.Changes
