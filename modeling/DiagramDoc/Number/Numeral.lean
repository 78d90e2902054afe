import DiagramDoc.Number.Decimal

/-!
# Numerals

The text of a number in diagrams and tables, and the number that a text stands for. Whole numbers
below `10²¹` have no point, other numbers have their shortest digits and never an exponent.
-/

namespace DiagramDoc.Number
open Magnitude

def undefinedText : Text := "NaN".toList

def infinityText : Text := "Infinity".toList

def signed (negative : Bool) (t : Text) : Text := if negative then '-' :: t else t

/-- The text of a number; both zeros are written alike, and of two equally near decimals the larger
is taken. -/
def toText (x : Number) : Text :=
  match x with
  | .undefined => undefinedText
  | .infinite negative => signed negative infinityText
  | .finite negative place =>
    match x.toInt? with
    | some i =>
      if i.natAbs < Nat.pow 10 21 then Digits.ofInt i
      else shortestText negative place
    | none => shortestText negative place
where
  shortestText (negative : Bool) (place : Nat) : Text :=
    let (digits, exponent) := (Decimal.shortest .up place).trimmed
    signed negative (Decimal.positional digits exponent)

def isForeignLetter (c : Char) : Bool := c.isAlpha && c != 'e' && c != 'E'

def ofHexText (t : Text) : Number :=
  match Digits.read 16 0xFFFFFFFFFFFFFFFF t with
  | .ok n => ofNat n
  | .error _ => .undefined

/-- The number that a text stands for: nothing is zero, and what is no number is undefined. -/
def ofText (text : Text) : Number :=
  match Text.trim text with
  | [] => zero
  | '0' :: 'x' :: hex => ofHexText hex
  | '0' :: 'X' :: hex => ofHexText hex
  | t =>
    let unsigned := t.dropWhile fun c => c == '+' || c == '-'
    if unsigned = infinityText then .infinite (t.head? == some '-')
    else if unsigned.any isForeignLetter then .undefined
    else
      match Decimal.read? t with
      | some (negative, d) => d.toNumber negative
      | none => .undefined

end DiagramDoc.Number
