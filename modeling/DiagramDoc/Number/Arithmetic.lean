import DiagramDoc.Number.Basic

/-!
# Arithmetic

Sums, products, quotients and whole parts of numbers: the exact result, rounded once.
-/

namespace DiagramDoc.Number
open Magnitude

def neg : Number → Number
  | .undefined => .undefined
  | .infinite negative => .infinite (!negative)
  | .finite negative place => .finite (!negative) place

def signedUnits (negative : Bool) (place : Fin limit) : Int :=
  if negative then -(units place : Int) else units place

/-- Opposite numbers add up to plain zero; only two negative zeros add up to a negative one. -/
def add : Number → Number → Number
  | .finite m p, .finite n q =>
    let total := signedUnits m p + signedUnits n q
    ofUnits (if total = 0 then m && n else decide (total < 0)) total.natAbs 1
  | .infinite m, .infinite n => if m = n then .infinite m else .undefined
  | .infinite m, .finite _ _ => .infinite m
  | .finite _ _, .infinite n => .infinite n
  | .undefined, _ => .undefined
  | _, .undefined => .undefined

def mul : Number → Number → Number
  | .finite m p, .finite n q => ofUnits (m != n) (units p * units q) one
  | .infinite m, .infinite n => .infinite (m != n)
  | .infinite m, .finite n q => if q.val = 0 then .undefined else .infinite (m != n)
  | .finite m p, .infinite n => if p.val = 0 then .undefined else .infinite (m != n)
  | .undefined, _ => .undefined
  | _, .undefined => .undefined

def div : Number → Number → Number
  | .finite m p, .finite n q =>
    if q.val = 0 then if p.val = 0 then .undefined else .infinite (m != n)
    else ofUnits (m != n) (units p * one) (units q)
  | .infinite _, .infinite _ => .undefined
  | .infinite m, .finite n _ => .infinite (m != n)
  | .finite m _, .infinite n => signedZero (m != n)
  | .undefined, _ => .undefined
  | _, .undefined => .undefined

instance : Neg Number := ⟨neg⟩
instance : Add Number := ⟨add⟩
instance : Mul Number := ⟨mul⟩
instance : Div Number := ⟨div⟩

/-- The largest whole number that is not above a number. -/
def floor : Number → Number
  | .finite negative place =>
    let whole := units place / one
    if negative ∧ units place % one ≠ 0 then ofUnits true ((whole + 1) * one) 1
    else ofUnits negative (whole * one) 1
  | x => x

def sum (xs : List Number) : Number := xs.foldl (· + ·) zero

end DiagramDoc.Number
