import DiagramDoc.Number.Basic
import DiagramDoc.Text.Basic

/-!
# JSON values

Whole numbers are kept apart from other numbers, since identifiers are exact up to `2⁶⁴ - 1`. Of two
members of one object with the same name the last one counts.
-/

namespace DiagramDoc

inductive Json where
  | null
  | boolean (flag : Bool)
  | integer (i : Int)
  | real (x : Number)
  | text (t : Text)
  | array (items : List Json)
  | object (members : List (Text × Json))
deriving Inhabited

namespace Json

def lookup? (name : Text) : List (Text × Json) → Option Json
  | [] => none
  | (key, value) :: rest => (lookup? name rest).or (if key = name then some value else none)

def member? (name : Text) : Json → Option Json
  | object members => lookup? name members
  | _ => none

def array? : Json → Option (List Json)
  | array items => some items
  | _ => none

def object? : Json → Option (List (Text × Json))
  | object members => some members
  | _ => none

def text? : Json → Option Text
  | text t => some t
  | _ => none

/-- A number as a value; JSON has no numbers that are not finite. -/
def ofNumber (x : Number) : Json := if x.isFinite then real x else null

def ofNat (n : Nat) : Json := integer n

/-! Values can be compared. -/

mutual

def same : Json → Json → Bool
  | null, null => true
  | boolean a, boolean b => a == b
  | integer i, integer j => i == j
  | real x, real y => x == y
  | text s, text t => s == t
  | array xs, array ys => sameItems xs ys
  | object xs, object ys => sameMembers xs ys
  | _, _ => false

def sameItems : List Json → List Json → Bool
  | [], [] => true
  | x :: xs, y :: ys => same x y && sameItems xs ys
  | _, _ => false

def sameMembers : List (Text × Json) → List (Text × Json) → Bool
  | [], [] => true
  | (name, x) :: xs, (other, y) :: ys => name == other && same x y && sameMembers xs ys
  | _, _ => false

end

mutual

theorem same_iff (a b : Json) : same a b = true ↔ a = b := by
  cases a <;> cases b
  case array.array xs ys => simp [same, sameItems_iff xs ys]
  case object.object xs ys => simp [same, sameMembers_iff xs ys]
  all_goals simp [same]

theorem sameItems_iff (xs ys : List Json) : sameItems xs ys = true ↔ xs = ys := by
  match xs, ys with
  | [], [] | [], _ :: _ | _ :: _, [] => simp [sameItems]
  | x :: xs, y :: ys => simp [sameItems, same_iff x y, sameItems_iff xs ys]

theorem sameMembers_iff (xs ys : List (Text × Json)) : sameMembers xs ys = true ↔ xs = ys := by
  match xs, ys with
  | [], [] | [], _ :: _ | _ :: _, [] => simp [sameMembers]
  | (name, x) :: xs, (other, y) :: ys =>
    simp [sameMembers, same_iff x y, sameMembers_iff xs ys, and_assoc]

end

instance : DecidableEq Json := fun a b => decidable_of_iff _ (same_iff a b)

end Json
end DiagramDoc
