import DiagramDoc.Number.Basic
import DiagramDoc.Number.Digits

/-!
# Decimals

A decimal is a coefficient times a power of ten. Reading one gives the nearest number. Going back,
a number has a shortest decimal: the fewest digits that read back as the number, and the nearest
decimal of that many digits.
-/

namespace DiagramDoc

structure Decimal where
  coefficient : Nat
  exponent : Int
deriving DecidableEq

/-- Which of two decimals equally near to a number is taken. -/
inductive Tie where
  | up
  | toEven
deriving DecidableEq

namespace Decimal
open Magnitude

def ratio (d : Decimal) : Nat × Nat :=
  match d.exponent with
  | .ofNat k => (d.coefficient * Nat.pow 10 k * one, 1)
  | .negSucc k => (d.coefficient * one, Nat.pow 10 (k + 1))

/-- The number nearest to a decimal. Decimals far outside the range of magnitudes are decided by
their number of digits, without building the power of ten. -/
def toNumber (negative : Bool) (d : Decimal) : Number :=
  let size : Int := (Digits.ofNat d.coefficient).length + d.exponent
  if d.coefficient = 0 ∨ size < -330 then .signedZero negative
  else if 310 < size then .infinite negative
  else Number.ofUnits negative d.ratio.1 d.ratio.2

/-- The exponent of the leading decimal digit of a positive magnitude. -/
def leadingExponent (units : Nat) : Int :=
  (Digits.ofNat (units * Nat.pow 10 400 / one)).length - 401

/-- The coefficient, with the given exponent, of the decimal just below a magnitude, and whether the
next one is nearer, as near or farther. -/
def below (units : Nat) (exponent : Int) : Nat × Ordering :=
  let (num, den) :=
    match exponent with
    | .ofNat k => (units, one * Nat.pow 10 k)
    | .negSucc k => (units * Nat.pow 10 (k + 1), one)
  (num / den, compare (2 * (num % den)) den)

def readsAs (place : Nat) (d : Decimal) : Bool :=
  Magnitude.place d.ratio.1 d.ratio.2 == place

/-- The nearer of two neighbouring decimals. -/
def nearer (tie : Tie) (side : Ordering) (lower upper : Decimal) : Decimal :=
  match side with
  | .lt => lower
  | .gt => upper
  | .eq => if tie = .up ∨ lower.coefficient % 2 = 1 then upper else lower

/-- The nearest decimal of a given exponent, if one reads back as the magnitude at a place. -/
def nearest? (tie : Tie) (place : Nat) (exponent : Int) : Option Decimal :=
  let cut := below (units place) exponent
  let lower : Decimal := ⟨cut.1, exponent⟩
  let upper : Decimal := ⟨cut.1 + 1, exponent⟩
  if readsAs place lower then
    if readsAs place upper then some (nearer tie cut.2 lower upper) else some lower
  else if readsAs place upper then some upper
  else none

def exact (place : Nat) : Decimal := ⟨units place * Nat.pow 5 1074, -1074⟩

/-- The shortest decimal of the magnitude at a place other than zero. -/
def shortest (tie : Tie) (place : Nat) : Decimal :=
  let leading := leadingExponent (units place)
  ((List.range 17).findSome? fun extra => nearest? tie place (leading - (extra : Nat))).getD
    (exact place)

def trimmed (d : Decimal) : Text × Int :=
  let digits := Digits.ofNat d.coefficient
  let kept := (digits.reverse.dropWhile (· == '0')).reverse
  (kept, d.exponent + (digits.length - kept.length : Nat))

/-- Digits with a decimal point where the exponent of the last one puts it. -/
def positional (digits : Text) : Int → Text
  | .ofNat k => digits ++ List.replicate k '0'
  | .negSucc k =>
    if k + 1 < digits.length then
      digits.take (digits.length - (k + 1)) ++ '.' :: digits.drop (digits.length - (k + 1))
    else '0' :: '.' :: (List.replicate (k + 1 - digits.length) '0' ++ digits)

def readSign : Text → Bool × Text
  | '-' :: rest => (true, rest)
  | '+' :: rest => (false, rest)
  | t => (false, t)

def readDigits (t : Text) : Text × Text := (t.takeWhile Char.isDigit, t.dropWhile Char.isDigit)

def readFraction : Text → Text × Text
  | '.' :: rest => readDigits rest
  | t => ([], t)

/-- The exponent that makes up a whole text; an empty text is an exponent of zero. -/
def readExponent? : Text → Option Int
  | [] => some 0
  | c :: rest =>
    let (negative, digits) := readSign rest
    if (c = 'e' ∨ c = 'E') ∧ digits ≠ [] ∧ digits.all Char.isDigit then
      some (if negative then -(Digits.toNat digits : Int) else Digits.toNat digits)
    else none

/-- Reads a sign, digits with at most one point among or around them, and an exponent. -/
def read? (t : Text) : Option (Bool × Decimal) :=
  let (negative, unsigned) := readSign t
  let (whole, rest) := readDigits unsigned
  let (fraction, rest) := readFraction rest
  if whole = [] ∧ fraction = [] then none
  else
    (readExponent? rest).map fun exponent =>
      (negative, ⟨Digits.toNat (whole ++ fraction), exponent - fraction.length⟩)

end Decimal
end DiagramDoc
