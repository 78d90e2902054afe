import DiagramDoc.Number.Arithmetic
import DiagramDoc.Proofs.Number.Whole

/-!
# Rounding ratios

Rounding looks at the value of a ratio and not at how it is written. The units of a place are
rounded to this place, very small ratios to zero, and very large ones beyond all places. A larger
ratio is never rounded to a smaller place. A number that is divided by one stays what it is.
-/

namespace DiagramDoc

namespace Magnitude

/-! ### One ratio in two ways -/

section Ratio

variable {k : Nat} (hk : 0 < k)

include hk

theorem divideToEven_mul_mul (num den : Nat) :
    divideToEven (num * k) (den * k) = divideToEven num den := by
  have hmod : 2 * (num * k % (den * k)) = 2 * (num % den) * k := by
    rw [Nat.mul_mod_mul_right, Nat.mul_assoc]
  unfold divideToEven
  dsimp only
  rw [Nat.mul_div_mul_right _ _ hk, hmod]
  simp only [Nat.mul_lt_mul_right hk]

theorem place_mul_mul (num den : Nat) : place (num * k) (den * k) = place num den := by
  unfold place
  dsimp only
  rw [Nat.mul_div_mul_right _ _ hk, Nat.mul_right_comm den k, divideToEven_mul_mul hk]

end Ratio

theorem place_congr {num den num' den' : Nat} (hd : 0 < den) (hd' : 0 < den')
    (h : num * den' = num' * den) : place num den = place num' den' := by
  calc place num den = place (num * den') (den * den') := (place_mul_mul hd' num den).symm
    _ = place (num' * den) (den' * den) := by rw [h, Nat.mul_comm den]
    _ = place num' den' := place_mul_mul hd num' den'

/-! ### Ratios that are units of a place -/

theorem place_of_lt {p : Nat} (h : p < binade) : place p 1 = p := by
  have hlog : p.log2 - 52 = 0 := by
    by_cases hp : p = 0
    · rw [hp]
      rfl
    · have hl : p.log2 < 52 := (Nat.log2_lt hp).mpr h
      omega
  have hd := divideToEven_mul p (Nat.zero_lt_one)
  unfold place
  dsimp only
  rw [Nat.div_one, hlog]
  show 0 * binade + divideToEven p 1 = p
  rw [Nat.mul_one] at hd
  rw [hd, Nat.zero_mul, Nat.zero_add]

theorem place_significand {q shift : Nat} (h : binade ≤ q) (h' : q < 2 * binade) :
    place (q * Nat.pow 2 shift) 1 = shift * binade + q := by
  have hb : binade = Nat.pow 2 52 := rfl
  have hpos : 0 < binade := by decide
  have hq : q ≠ 0 := by omega
  have hlow : 52 ≤ q.log2 := (Nat.le_log2 hq).mpr h
  have hhigh : q.log2 < 53 := (Nat.log2_lt hq).mpr h'
  have hs : q.log2 + shift - 52 = shift := by omega
  unfold place
  dsimp only
  rw [Nat.div_one, log2_mul_pow hq, hs, Nat.one_mul, divideToEven_mul q (pow_two_pos shift)]

/-- The units of a place are rounded to this place. -/
theorem place_units (p : Nat) : place (units p) 1 = p := by
  have hpos : 0 < binade := by decide
  unfold units
  split
  · next h => exact place_of_lt h
  · next h =>
    have hr : p % binade < binade := Nat.mod_lt p hpos
    have hq : 1 ≤ p / binade := (Nat.le_div_iff_mul_le hpos).mpr (by omega)
    calc place ((binade + p % binade) * Nat.pow 2 (p / binade - 1)) 1
        = (p / binade - 1) * binade + (binade + p % binade) :=
          place_significand (Nat.le_add_right _ _) (by omega)
      _ = (p / binade - 1 + 1) * binade + p % binade := by rw [Nat.succ_mul, Nat.add_assoc]
      _ = p := by rw [Nat.sub_add_cancel hq, Nat.div_add_mod']

/-! ### Ratios outside the scale -/

theorem place_of_lt_half {num den : Nat} (h : 2 * num < den) : place num den = 0 := by
  have hq : num / den = 0 := Nat.div_eq_of_lt (by omega)
  have hm : num % den = num := Nat.mod_eq_of_lt (by omega)
  have hd : divideToEven num den = 0 := by
    unfold divideToEven
    dsimp only
    rw [hm, if_pos h, hq]
  have hs : (num / den).log2 - 52 = 0 := by
    rw [hq]
    rfl
  unfold place
  dsimp only
  rw [hs, Nat.zero_mul, Nat.zero_add]
  show divideToEven num (den * 1) = 0
  rw [Nat.mul_one, hd]

theorem limit_le_place {num den k : Nat} (hk : 2099 ≤ k) (h : Nat.pow 2 k ≤ num / den) :
    limit ≤ place num den := by
  have hne : num / den ≠ 0 := Nat.ne_of_gt (Nat.lt_of_lt_of_le (pow_two_pos k) h)
  have hlog : k ≤ (num / den).log2 := (Nat.le_log2 hne).mpr h
  have hshift : 2047 ≤ (num / den).log2 - 52 := Nat.le_sub_of_add_le (Nat.le_trans hk hlog)
  exact Nat.le_trans (Nat.mul_le_mul_right binade hshift) (Nat.le_add_right _ _)

/-! ### The order of ratios -/

theorem log2_mono {m n : Nat} (h : m ≤ n) : m.log2 ≤ n.log2 := by
  by_cases hm : m = 0
  · rw [hm]
    exact Nat.zero_le _
  · have hn : n ≠ 0 := by omega
    exact (Nat.le_log2 hn).mpr (Nat.le_trans (le_pow_log2 hm) h)

theorem divideToEven_mono {num num' : Nat} (den : Nat) (h : num ≤ num') :
    divideToEven num den ≤ divideToEven num' den := by
  rcases Nat.lt_or_eq_of_le (Nat.div_le_div_right (c := den) h) with hlt | heq
  · obtain ⟨-, hhigh⟩ := le_divideToEven num den
    obtain ⟨hlow, -⟩ := le_divideToEven num' den
    omega
  · -- With the same quotient the remainders decide.
    have hnum := Nat.div_add_mod' num den
    have hnum' := Nat.div_add_mod' num' den
    rw [heq] at hnum
    have hrem : num % den ≤ num' % den := by omega
    have hparity := Nat.mod_lt (num' / den) (by decide : 0 < 2)
    unfold divideToEven
    dsimp only
    rw [heq]
    repeat' split
    all_goals omega

section Significand

variable (num den : Nat)

theorem significand_le :
    divideToEven num (den * Nat.pow 2 ((num / den).log2 - 52)) ≤ 2 * binade := by
  have hlog : num / den < Nat.pow 2 (53 + ((num / den).log2 - 52)) :=
    Nat.lt_of_lt_of_le (lt_pow_log2 _) (Nat.pow_le_pow_right (by decide) (by omega) :
      Nat.pow 2 ((num / den).log2 + 1) ≤ _)
  have hquot : num / (den * Nat.pow 2 ((num / den).log2 - 52)) < 2 * binade := by
    rw [← Nat.div_div_eq_div_mul]
    refine (Nat.div_lt_iff_lt_mul (pow_two_pos _)).mpr ?_
    rwa [pow_two_add] at hlog
  obtain ⟨-, hhigh⟩ := le_divideToEven num (den * Nat.pow 2 ((num / den).log2 - 52))
  omega

theorem le_significand (h : 52 < (num / den).log2) :
    binade ≤ divideToEven num (den * Nat.pow 2 ((num / den).log2 - 52)) := by
  have hne : num / den ≠ 0 := by
    intro hz
    rw [hz] at h
    exact absurd h (by decide)
  have hpow : Nat.pow 2 (52 + ((num / den).log2 - 52)) ≤ num / den := by
    rw [Nat.add_sub_cancel' (Nat.le_of_lt h)]
    exact le_pow_log2 hne
  have hquot : binade ≤ num / (den * Nat.pow 2 ((num / den).log2 - 52)) := by
    rw [← Nat.div_div_eq_div_mul]
    refine (Nat.le_div_iff_mul_le (pow_two_pos _)).mpr ?_
    rwa [pow_two_add] at hpow
  exact Nat.le_trans hquot (le_divideToEven num _).1

end Significand

/-- Rounding keeps the order of ratios. -/
theorem place_mono {num den num' den' : Nat} (hd : 0 < den) (hd' : 0 < den')
    (h : num * den' ≤ num' * den) : place num den ≤ place num' den' := by
  suffices hsame : ∀ {n n' : Nat} (d : Nat), n ≤ n' → place n d ≤ place n' d by
    calc place num den = place (num * den') (den * den') := (place_mul_mul hd' num den).symm
      _ ≤ place (num' * den) (den * den') := hsame _ h
      _ = place (num' * den) (den' * den) := by rw [Nat.mul_comm den]
      _ = place num' den' := place_mul_mul hd num' den'
  intro n n' d hn
  have hlog : (n / d).log2 ≤ (n' / d).log2 := log2_mono (Nat.div_le_div_right hn)
  have hlow := significand_le n d
  have hhigh := le_significand n' d
  unfold place
  dsimp only
  by_cases heq : (n / d).log2 - 52 = (n' / d).log2 - 52
  · rw [heq]
    exact Nat.add_le_add_left (divideToEven_mono _ hn) _
  · -- All of a lower binade is below a higher one.
    have hhigh := hhigh (by omega)
    have hshift : ((n / d).log2 - 52 + 1) * binade ≤ ((n' / d).log2 - 52) * binade :=
      Nat.mul_le_mul_right binade (by omega)
    rw [Nat.succ_mul] at hshift
    omega

end Magnitude

/-! ### Quotients by one -/

namespace Number

open Magnitude

theorem exists_ofNat {n : Nat} (hn : n < 0x20000000000000) :
    ∃ q : Fin limit, units q = n * one ∧ ofNat n = .finite false q := by
  obtain ⟨hlt, hunits⟩ := units_place_of_lt hn
  exact ⟨⟨place (n * one) 1, hlt⟩, hunits, dif_pos hlt⟩

theorem div_one (x : Number) : x / 1 = x := by
  show x / ofNat 1 = x
  obtain ⟨q, hq, hone⟩ := exists_ofNat (n := 1) (by decide)
  rw [Nat.one_mul] at hq
  have hne : q.val ≠ 0 := by
    intro h
    rw [h] at hq
    exact Nat.ne_of_lt zero_lt_one_units hq
  rw [hone]
  show div x _ = x
  cases x with
  | undefined => rfl
  | infinite negative => cases negative <;> rfl
  | finite negative p =>
    have hsame : place (units p * one) (units q) = p := by
      have hcancel := place_mul_mul zero_lt_one_units (units p) 1
      rw [Nat.one_mul, place_units] at hcancel
      rw [hq, hcancel]
    unfold div
    dsimp only
    rw [if_neg hne, Bool.bne_false]
    unfold ofUnits
    simp only [hsame]
    exact dif_pos p.isLt

end Number

end DiagramDoc
