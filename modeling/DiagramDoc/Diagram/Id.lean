import DiagramDoc.Number.Digits

/-!
# Identifiers

Every entity of a diagram has a natural number that no other entity of it has. Zero means that the
number is missing. Identifiers are read up to `2⁵³ - 1`, and counting stops at `2⁶⁴ - 1`.
-/

namespace DiagramDoc

namespace EntityId

def missing : Nat := 0

/-- The largest identifier that is accepted from text or JSON, `2⁵³ - 1`. -/
def largestRead : Nat := 0x1FFFFFFFFFFFFF

def largest : Nat := 0xFFFFFFFFFFFFFFFF

def successor (id : Nat) : Nat := min (id + 1) largest

theorem successor_eq {id : Nat} (h : id < largest) : successor id = id + 1 := by
  exact Nat.min_eq_left (Nat.succ_le_of_lt h)

theorem successor_pos (id : Nat) : 0 < successor id := by
  exact Nat.lt_min.mpr ⟨Nat.succ_pos id, by decide⟩

def InRange (id : Nat) : Prop := 1 ≤ id ∧ id ≤ largestRead

instance (id : Nat) : Decidable (InRange id) := inferInstanceAs (Decidable (_ ∧ _))

def toText (id : Nat) : Text := Digits.ofNat id

def read (t : Text) : Except Digits.Fault Nat := Digits.read 10 largest t

end EntityId

class Entity (α : Type) where
  id : α → Nat
  withId : α → Nat → α

namespace Entity

variable {α : Type} [Entity α]

def ids (xs : List α) : List Nat := xs.map id

def find? (xs : List α) (i : Nat) : Option α := xs.find? (fun x => id x == i)

def update? (f : α → α) (i : Nat) : List α → Option (List α)
  | [] => none
  | x :: xs => if id x = i then some (f x :: xs) else (update? f i xs).map (x :: ·)

/-- Changes the last entity with an identifier, if there is one. -/
def updateLast? (f : α → α) (i : Nat) : List α → Option (List α)
  | [] => none
  | x :: xs =>
    match updateLast? f i xs with
    | some xs => some (x :: xs)
    | none => if id x = i then some (f x :: xs) else none

def remove? (i : Nat) : List α → Option (List α)
  | [] => none
  | x :: xs => if id x = i then some xs else (remove? i xs).map (x :: ·)

end Entity
end DiagramDoc
