import DiagramDoc.Text.Basic

/-!
# Decimal digits

The decimal digits of a natural number, and the number that digits denote.
-/

namespace DiagramDoc

namespace Digits

def digit (n : Nat) : Char := Char.ofNat ('0'.toNat + n)

/-- Puts the digits of `n` before `rest`; `fuel` is at least the number of digits less one. -/
def before : Nat → Nat → Text → Text
  | 0, n, rest => digit (n % 10) :: rest
  | fuel + 1, n, rest =>
    if n < 10 then digit n :: rest else before fuel (n / 10) (digit (n % 10) :: rest)

def ofNat (n : Nat) : Text := before n n []

def ofInt (i : Int) : Text :=
  if i < 0 then '-' :: ofNat i.natAbs else ofNat i.natAbs

def value (c : Char) : Nat := c.toNat - '0'.toNat

def toNat (digits : Text) : Nat := digits.foldl (fun n c => n * 10 + value c) 0

theorem value_digit {n : Nat} (h : n < 10) : value (digit n) = n := by
  have : ∀ m : Fin 10, value (digit m) = m := by decide
  exact this ⟨n, h⟩

theorem isDigit_digit {n : Nat} (h : n < 10) : (digit n).isDigit = true := by
  have : ∀ m : Fin 10, (digit m).isDigit = true := by decide
  exact this ⟨n, h⟩

/-- Reading on after the digits of `n` is reading on from `n`. -/
theorem foldl_before (fuel n : Nat) (rest : Text) (h : n ≤ fuel) :
    (before fuel n rest).foldl (fun n c => n * 10 + value c) 0 =
      rest.foldl (fun n c => n * 10 + value c) n := by
  induction fuel generalizing n rest with
  | zero =>
    obtain rfl : n = 0 := by omega
    rfl
  | succ fuel ih =>
    simp only [before]
    split
    · next hn => simp [value_digit hn]
    · next hn =>
      rw [ih _ _ (by omega)]
      simp only [List.foldl_cons, value_digit (Nat.mod_lt n (by decide : 0 < 10))]
      congr 1
      omega

theorem toNat_ofNat (n : Nat) : toNat (ofNat n) = n := foldl_before n n [] (Nat.le_refl n)

theorem all_isDigit_before (fuel n : Nat) (rest : Text) :
    (before fuel n rest).all Char.isDigit = rest.all Char.isDigit := by
  induction fuel generalizing n rest with
  | zero => simp [before, isDigit_digit (Nat.mod_lt n (by decide : 0 < 10))]
  | succ fuel ih =>
    simp only [before]
    split
    · next hn => simp [isDigit_digit hn]
    · next hn => simp [ih, isDigit_digit (Nat.mod_lt n (by decide : 0 < 10))]

theorem all_isDigit_ofNat (n : Nat) : (ofNat n).all Char.isDigit = true := all_isDigit_before n n []

inductive Fault where
  | empty
  | invalidDigit
  | tooLarge
deriving DecidableEq

def Fault.message : Fault → Text
  | .empty => "cannot parse integer from empty string".toList
  | .invalidDigit => "invalid digit found in string".toList
  | .tooLarge => "number too large to fit in target type".toList

def valueIn? (base : Nat) (c : Char) : Option Nat :=
  let n := c.toNat
  let digit :=
    if '0'.toNat ≤ n ∧ n ≤ '9'.toNat then n - '0'.toNat
    else if 'a'.toNat ≤ n ∧ n ≤ 'f'.toNat then n - 'a'.toNat + 10
    else if 'A'.toNat ≤ n ∧ n ≤ 'F'.toNat then n - 'A'.toNat + 10
    else base
  if digit < base then some digit else none

def readOn (base bound n : Nat) : Text → Except Fault Nat
  | [] => .ok n
  | c :: rest =>
    match valueIn? base c with
    | none => .error .invalidDigit
    | some d =>
      if bound < n * base + d then .error .tooLarge else readOn base bound (n * base + d) rest

/-- Reads an unsigned number of at most `bound`; a plus sign may stand before the digits. -/
def read (base bound : Nat) : Text → Except Fault Nat
  | [] => .error .empty
  | ['+'] => .error .invalidDigit
  | '+' :: rest => readOn base bound 0 rest
  | t => readOn base bound 0 t

end Digits
end DiagramDoc
