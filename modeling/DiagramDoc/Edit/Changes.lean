/-!
# Changes

Which entities a batch of edits added, removed and updated, as increasing lists. An entity that was
added and removed again leaves no trace, and one that was added does not count as updated.
-/

namespace DiagramDoc

structure Changes where
  added : List Nat := []
  removed : List Nat := []
  updated : List Nat := []
deriving DecidableEq

namespace Changes

/-- Inserts into an increasing list. -/
def insert (id : Nat) : List Nat → List Nat
  | [] => [id]
  | x :: xs => if id < x then id :: x :: xs else if id = x then x :: xs else x :: insert id xs

theorem mem_insert {a id : Nat} {xs : List Nat} : a ∈ insert id xs ↔ a = id ∨ a ∈ xs := by
  induction xs with
  | nil => simp [insert]
  | cons x xs ih => simp only [insert]; split <;> (try split) <;> simp_all; grind

def erase (id : Nat) (xs : List Nat) : List Nat := xs.filter (· ≠ id)

theorem mem_erase {a id : Nat} {xs : List Nat} : a ∈ erase id xs ↔ a ∈ xs ∧ a ≠ id := by
  simp [erase]

def recordAdded (c : Changes) (id : Nat) : Changes where
  added := insert id c.added
  removed := erase id c.removed
  updated := erase id c.updated

def recordRemoved (c : Changes) (id : Nat) : Changes where
  added := erase id c.added
  removed := if id ∈ c.added then c.removed else insert id c.removed
  updated := erase id c.updated

def recordUpdated (c : Changes) (id : Nat) : Changes :=
  if id ∈ c.added ∨ id ∈ c.removed then c else { c with updated := insert id c.updated }

end Changes
end DiagramDoc
