import DiagramDoc.Json.Basic
import DiagramDoc.Number.Numeral
import DiagramDoc.Diagram.Id

/-!
# Lenient fields

What a field of a document is taken for, whatever value it holds: a number, an identifier or a text.
A field that is not there is `none`.
-/

namespace DiagramDoc.Lenient

/-- Null is zero, a truth value is zero or one, a text is what it stands for. -/
def number : Option Json → Number
  | some .null => .zero
  | some (.boolean flag) => if flag then 1 else .zero
  | some (.integer i) => .ofInt i
  | some (.real x) => x
  | some (.text t) => .ofText t
  | some (.array _) | some (.object _) | none => .undefined

/-- A number, where zero and whatever is not finite give way to a default. -/
def numberOr (default : Number) (field : Option Json) : Number :=
  let x := number field
  if x.isFinite && !x.isZero then x else default

/-- A whole number in the range of identifiers; anything else is a missing identifier. -/
def entityId (field : Option Json) : Nat :=
  match (number field).toInt? with
  | some i => if 1 ≤ i ∧ i ≤ EntityId.largestRead then i.toNat else EntityId.missing
  | none => EntityId.missing

/-- A text; numbers and truth values are written out, anything else gives way to a default. -/
def textOr (default : Text) : Option Json → Text
  | some (.text t) => t
  | some (.integer i) => (Number.ofInt i).toText
  | some (.real x) => x.toText
  | some (.boolean flag) => if flag then "true".toList else "false".toList
  | some .null | some (.array _) | some (.object _) | none => default

def text : Option Json → Text
  | some (.text t) => t
  | _ => []

def choice {α : Type} (ofName? : Text → Option α) (default : α) (field : Option Json) : α :=
  ((field.bind Json.text?).bind ofName?).getD default

def items (field : Option Json) : List Json := (field.bind Json.array?).getD []

end DiagramDoc.Lenient
