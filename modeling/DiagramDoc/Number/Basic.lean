/-!
# Numbers

The numbers of a document are binary64 numbers. A finite one is a sign and a place on the scale of
magnitudes: the places count upwards from zero, each step leads to the next larger magnitude, and
every magnitude is a whole number of `2⁻¹⁰⁷⁴`, its units. Rounding turns a ratio of units into the
nearest place, a half going to the even one.
-/

namespace DiagramDoc

namespace Magnitude

/-- How many magnitudes share one exponent, `2⁵²`. -/
abbrev binade : Nat := 0x10000000000000

/-- The first place beyond the largest finite magnitude. -/
abbrev limit : Nat := 2047 * binade

/-- The magnitude at a place, counted in `2⁻¹⁰⁷⁴`. -/
def units (place : Nat) : Nat :=
  if place < binade then place
  else (binade + place % binade) * Nat.pow 2 (place / binade - 1)

abbrev one : Nat := Nat.pow 2 1074

/-- The whole number next to a quotient, a half going to the even neighbour. -/
def divideToEven (num den : Nat) : Nat :=
  let quotient := num / den
  let twice := 2 * (num % den)
  if twice < den then quotient
  else if den < twice then quotient + 1
  else quotient + quotient % 2

/-- The place nearest to a quotient of units. It may be `limit` or more. -/
def place (num den : Nat) : Nat :=
  let shift := (num / den).log2 - 52
  shift * binade + divideToEven num (den * Nat.pow 2 shift)

end Magnitude

/-- A number of a document: all undefined results are one value. -/
inductive Number where
  | undefined
  | infinite (negative : Bool)
  | finite (negative : Bool) (place : Fin Magnitude.limit)
deriving DecidableEq

namespace Number
open Magnitude

/-- The nearest number to a ratio of units, with a sign. -/
def ofUnits (negative : Bool) (num den : Nat) : Number :=
  if h : Magnitude.place num den < limit then .finite negative ⟨Magnitude.place num den, h⟩
  else .infinite negative

def signedZero (negative : Bool) : Number := .finite negative ⟨0, by decide⟩

def zero : Number := signedZero false

def ofNat (n : Nat) : Number := ofUnits false (n * one) 1

def ofInt (i : Int) : Number := ofUnits (decide (i < 0)) (i.natAbs * one) 1

instance (n : Nat) : OfNat Number n := ⟨ofNat n⟩

def ofBits (bits : Nat) : Number :=
  let negative := 0x8000000000000000 ≤ bits % 0x10000000000000000
  let place := bits % 0x8000000000000000
  if h : place < limit then .finite negative ⟨place, h⟩
  else if place = limit then .infinite negative
  else .undefined

def isZero : Number → Bool
  | .finite _ place => place.val == 0
  | _ => false

def isFinite : Number → Bool
  | .finite _ _ => true
  | _ => false

def toInt? : Number → Option Int
  | .finite negative place =>
    if units place % one = 0 then
      some (if negative then -(units place / one : Nat) else (units place / one : Nat))
    else none
  | _ => none

end Number
end DiagramDoc
