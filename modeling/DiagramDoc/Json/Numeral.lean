import DiagramDoc.Json.Basic
import DiagramDoc.Number.Arithmetic
import DiagramDoc.Number.Decimal

/-!
# Numbers in JSON text

A number is written with its shortest digits, a point or an exponent always among them. A number is
read quickly: as many digits as fit into 64 bits are rounded once, and the power of ten is applied
with one more rounding, so the last bit of a long decimal is not always the nearest one.
-/

namespace DiagramDoc.Json
open Magnitude

/-- A digit, the point if more follow, and the exponent with its sign. -/
def scientific (digits : Text) (leading : Int) : Text :=
  let mark : Text := if leading < 0 then ['e', '-'] else ['e', '+']
  match digits with
  | [] => []
  | [d] => d :: (mark ++ Digits.ofNat leading.natAbs)
  | d :: more => d :: '.' :: (more ++ mark ++ Digits.ofNat leading.natAbs)

/-- Numbers from `10⁻⁵` up to `10¹⁶` are written without an exponent; of two equally near decimals
the one with the even digit is taken. -/
def realText : Number → Text
  | .finite negative place =>
    let unsigned :=
      if place.val = 0 then "0.0".toList
      else
        let (digits, exponent) := (Decimal.shortest .toEven place).trimmed
        let leading := exponent + digits.length - 1
        if leading < -5 ∨ 15 < leading then scientific digits leading
        else if 0 ≤ exponent then Decimal.positional digits exponent ++ ".0".toList
        else Decimal.positional digits exponent
    if negative then '-' :: unsigned else unsigned
  | _ => "null".toList

def significandLimit : Nat := 0xFFFFFFFFFFFFFFFF

/-- Appends digits to a significand up to the first that does not fit; the rest is left. -/
def gather (significand : Nat) : Text → Nat × Text
  | [] => (significand, [])
  | c :: rest =>
    let next := significand * 10 + Digits.value c
    if significandLimit < next then (significand, c :: rest) else gather next rest

def powerOfTen (k : Nat) : Number := .ofUnits false (Nat.pow 10 k * one) 1

/-- Divides by a power of ten, by at most `10³⁰⁸` at a time. -/
def scaleDown (x : Number) (k : Nat) : Number :=
  if h : k ≤ 308 then x / powerOfTen k
  else if x.isZero then x
  else scaleDown (x / powerOfTen 308) (k - 308)
termination_by k

/-- Multiplies by a power of ten; there is no result beyond the largest number. -/
def scaleUp? (x : Number) (k : Nat) : Option Number :=
  if x.isZero then some x
  else if 308 < k then none
  else
    let product := x * powerOfTen k
    if product.isFinite then some product else none

def scale? (significand : Nat) : Int → Option Number
  | .ofNat k => scaleUp? (.ofNat significand) k
  | .negSucc k => some (scaleDown (.ofNat significand) (k + 1))

structure Numeral where
  negative : Bool
  whole : Text
  fraction : Option Text
  exponent : Option Int

namespace Numeral

/-- Digits of the whole part that do not fit count as zeros, those of the fraction are dropped. -/
def real? (n : Numeral) : Option Number :=
  let (significand, zeros) := gather 0 n.whole
  let fraction := n.fraction.getD []
  let (significand, dropped) := gather significand fraction
  let places : Int := zeros.length - (fraction.length - dropped.length : Nat)
  (scale? significand (places + n.exponent.getD 0)).map fun x => if n.negative then -x else x

/-- Whole numbers of 64 bits, with or without a sign, are exact; minus zero is not whole. -/
def value? (n : Numeral) : Option Json :=
  let size := Digits.toNat n.whole
  if n.fraction.isNone ∧ n.exponent.isNone ∧ size ≤ significandLimit then
    if n.negative then
      if size = 0 ∨ 0x8000000000000000 < size then some (.real (-(.ofNat size)))
      else some (.integer (-size))
    else some (.integer size)
  else n.real?.map .real

end Numeral
end DiagramDoc.Json
