import DiagramDoc.Dialect.Scope
import DiagramDoc.Proofs.Number.Digits

/-!
# Names that ask for identifiers

A letter and the digits of an identifier ask for this identifier, and get it while it is free. Such
names are found again among the names of other identifiers.
-/

namespace DiagramDoc.Dialect

def literalName (letter : Char) (id : Nat) : Text := letter :: EntityId.toText id

theorem toText_injective {i j : Nat} (h : EntityId.toText i = EntityId.toText j) : i = j := by
  have hi := Digits.toNat_ofNat i
  have hj := Digits.toNat_ofNat j
  unfold EntityId.toText at h
  rw [← hi, ← hj, h]

theorem toText_ne_nil (id : Nat) : EntityId.toText id ≠ [] := Digits.ofNat_ne_nil id

theorem isDigit_of_mem_toText {id : Nat} {c : Char} (h : c ∈ EntityId.toText id) :
    c.isDigit = true :=
  List.all_eq_true.mp (Digits.all_isDigit_ofNat id) c h

section Name

variable {letter : Char} {id : Nat} {ids : List Nat}

theorem literalName_injective {i j : Nat} (h : literalName letter i = literalName letter j) :
    i = j :=
  toText_injective (List.cons.inj h).2

theorem literal?_literalName (letter : Char) (h : EntityId.InRange id) :
    Scope.literal? letter (literalName letter id) = some id := by
  have hv : Digits.toNat (EntityId.toText id) = id := Digits.toNat_ofNat id
  have hd : (EntityId.toText id).all Char.isDigit = true := Digits.all_isDigit_ofNat id
  unfold Scope.literal? literalName
  dsimp only
  rw [if_pos ⟨rfl, toText_ne_nil id, hd, hv.symm ▸ h⟩, hv]

/-- The name of an identifier that is free is granted it. -/
theorem allot_literalName (letter : Char) {s : Scope} (h : EntityId.InRange id)
    (hr : id ∉ s.reserved) (hc : id ∉ s.claimed) :
    (s.allot letter (literalName letter id)).1 = id ∧
      (s.allot letter (literalName letter id)).2.reserved = s.reserved ∧
      (s.allot letter (literalName letter id)).2.claimed = id :: s.claimed := by
  have hfree : ¬ (id ∈ s.reserved ∨ id ∈ s.claimed) := not_or.mpr ⟨hr, hc⟩
  unfold Scope.allot
  rw [literal?_literalName letter h]
  dsimp only
  rw [if_neg hfree]
  exact ⟨rfl, rfl, rfl⟩

def literalNames (letter : Char) (ids : List Nat) : List (Text × Nat) :=
  ids.map fun id => (literalName letter id, id)

theorem lookup?_literalNames_of_mem (letter : Char) (h : id ∈ ids) :
    lookup? (literalNames letter ids) (literalName letter id) = some id := by
  unfold lookup? literalNames
  induction ids with
  | nil => cases h
  | cons i ids ih =>
    rw [List.map_cons]
    by_cases hi : literalName letter i = literalName letter id
    · rw [List.find?_cons_of_pos (by simpa using hi), literalName_injective hi]
      rfl
    · have hne : id ≠ i := fun he => hi (he ▸ rfl)
      have hm : id ∈ ids := (List.mem_cons.mp h).resolve_left hne
      rw [List.find?_cons_of_neg (by simpa using hi)]
      exact ih hm

theorem lookup?_eq_none {names : List (Text × Nat)} {name : Text} :
    lookup? names name = none ↔ name ∉ names.map Prod.fst := by
  unfold lookup?
  rw [Option.map_eq_none_iff, List.find?_eq_none, List.mem_map, not_exists]
  refine forall_congr' fun entry => ?_
  rw [not_and, beq_iff_eq]

theorem mem_of_lookup?_eq_some {names : List (Text × Nat)} {name : Text}
    (h : lookup? names name = some id) : (name, id) ∈ names := by
  unfold lookup? at h
  obtain ⟨entry, hfind, hid⟩ := Option.map_eq_some_iff.mp h
  have hname : entry.1 = name := by simpa using List.find?_some hfind
  have hentry : entry = (name, id) := Prod.ext hname hid
  exact hentry ▸ List.mem_of_find?_eq_some hfind

theorem lookup?_literalNames_of_not_mem (letter : Char) (h : id ∉ ids) :
    lookup? (literalNames letter ids) (literalName letter id) = none := by
  refine lookup?_eq_none.mpr fun hm => h ?_
  obtain ⟨entry, he, hname⟩ := List.mem_map.mp hm
  obtain ⟨i, hi, rfl⟩ := List.mem_map.mp he
  exact literalName_injective hname ▸ hi

end Name

end DiagramDoc.Dialect
