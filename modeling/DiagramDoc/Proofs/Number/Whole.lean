import DiagramDoc.Number.Basic

/-!
# Whole numbers

A natural number below `2⁵³` is a magnitude of its own, so that it is read back exactly. From `2⁵³`
on magnitudes lie apart, but rounding never falls below `2⁵³`.
-/

namespace DiagramDoc

namespace Magnitude

theorem pow_two_add (m n : Nat) : Nat.pow 2 (m + n) = Nat.pow 2 m * Nat.pow 2 n := Nat.pow_add 2 m n

theorem pow_two_pos (n : Nat) : 0 < Nat.pow 2 n := Nat.pow_pos (by decide)

theorem le_pow_log2 {n : Nat} (h : n ≠ 0) : Nat.pow 2 n.log2 ≤ n := Nat.log2_self_le h

theorem lt_pow_log2 (n : Nat) : n < Nat.pow 2 n.log2 * 2 := Nat.lt_log2_self

theorem log2_mul_pow {n : Nat} (h : n ≠ 0) (e : Nat) : (n * Nat.pow 2 e).log2 = n.log2 + e := by
  induction e with
  | zero =>
    show (n * 1).log2 = n.log2
    rw [Nat.mul_one]
  | succ e ih =>
    have hne : n * Nat.pow 2 e ≠ 0 := Nat.mul_ne_zero h (Nat.ne_of_gt (pow_two_pos e))
    have hs : n * Nat.pow 2 (e + 1) = 2 * (n * Nat.pow 2 e) := by
      show n * (Nat.pow 2 e * 2) = 2 * (n * Nat.pow 2 e)
      rw [← Nat.mul_assoc, Nat.mul_comm]
    rw [hs, Nat.log2_two_mul hne, ih, Nat.add_assoc]

theorem divideToEven_mul {den : Nat} (n : Nat) (h : 0 < den) : divideToEven (n * den) den = n := by
  have hq : n * den / den = n := Nat.mul_div_cancel n h
  have hr : n * den % den = 0 := Nat.mul_mod_left n den
  unfold divideToEven
  rw [hq, hr, Nat.mul_zero]
  exact if_pos h

theorem le_divideToEven (num den : Nat) :
    num / den ≤ divideToEven num den ∧ divideToEven num den ≤ num / den + 1 := by
  unfold divideToEven
  dsimp only
  have hm := Nat.mod_lt (num / den) (by decide : 0 < 2)
  split
  · omega
  · split <;> omega

/-- Rounding adds half a step at most. -/
theorem divideToEven_mul_le (num den : Nat) : 2 * (divideToEven num den * den) ≤ 2 * num + den := by
  have hnum := Nat.div_add_mod' num den
  have hparity := Nat.mod_lt (num / den) (by decide : 0 < 2)
  have hodd : num / den % 2 * den ≤ 1 * den := Nat.mul_le_mul_right den (by omega)
  unfold divideToEven
  dsimp only
  split
  · omega
  · split
    · rw [Nat.add_mul]
      omega
    · rw [Nat.add_mul]
      omega

/-- A significand and an exponent give a place; one significand too many is the next binade. -/
theorem units_binade {shift q : Nat} (h : binade ≤ q) (h' : q ≤ 2 * binade) :
    units (shift * binade + q) = q * Nat.pow 2 shift := by
  have hp : 0 < binade := by decide
  have hge : ¬ shift * binade + q < binade := by omega
  unfold units
  rw [if_neg hge]
  by_cases hq : q = 2 * binade
  · -- Rounding up filled the binade, and the place is the first one of the next.
    have hs : shift * binade + q = (shift + 2) * binade := by rw [Nat.add_mul, hq]
    rw [hs, Nat.mul_mod_left, Nat.mul_div_cancel _ hp, hq]
    show (binade + 0) * (Nat.pow 2 shift * 2) = 2 * binade * Nat.pow 2 shift
    rw [Nat.add_zero, Nat.mul_comm 2 binade, Nat.mul_assoc, Nat.mul_comm 2]
  · have hs : shift * binade + q = (q - binade) + (shift + 1) * binade := by
      rw [Nat.add_mul]
      omega
    have hlt : q - binade < binade := by omega
    rw [hs, Nat.add_mul_mod_self_right, Nat.mod_eq_of_lt hlt, Nat.add_mul_div_right _ _ hp,
      Nat.div_eq_of_lt hlt, Nat.zero_add, Nat.add_sub_cancel, Nat.add_sub_cancel' h]

/-! ### Rounding a multiple of a power of two -/

section Whole

variable {unit e n : Nat} (hu : unit = binade * Nat.pow 2 e) (h : n ≠ 0)

include hu h

theorem place_mul : place (n * unit) 1 =
    (n.log2 + e) * binade + divideToEven (n * unit) (Nat.pow 2 (n.log2 + e)) := by
  have hb : binade = Nat.pow 2 52 := rfl
  have hlog : (n * unit).log2 = n.log2 + (52 + e) := by
    rw [hu, hb, ← pow_two_add, log2_mul_pow h]
  have hs : n.log2 + (52 + e) - 52 = n.log2 + e := by omega
  unfold place
  dsimp only
  rw [Nat.div_one, hlog, hs, Nat.one_mul]

theorem significand_bounds :
    binade ≤ divideToEven (n * unit) (Nat.pow 2 (n.log2 + e)) ∧
      divideToEven (n * unit) (Nat.pow 2 (n.log2 + e)) ≤ 2 * binade := by
  have hquot : n * unit / Nat.pow 2 (n.log2 + e) = n * binade / Nat.pow 2 n.log2 := by
    rw [hu, pow_two_add, ← Nat.mul_assoc, Nat.mul_div_mul_right _ _ (pow_two_pos e)]
  have hlow : binade ≤ n * binade / Nat.pow 2 n.log2 := by
    refine (Nat.le_div_iff_mul_le (pow_two_pos _)).mpr ?_
    rw [Nat.mul_comm]
    exact Nat.mul_le_mul_right _ (le_pow_log2 h)
  have hhigh : n * binade / Nat.pow 2 n.log2 < 2 * binade := by
    refine (Nat.div_lt_iff_lt_mul (pow_two_pos _)).mpr ?_
    have hlt := Nat.mul_lt_mul_of_pos_right (lt_pow_log2 n) (by decide : 0 < binade)
    rwa [Nat.mul_assoc, Nat.mul_comm (Nat.pow 2 n.log2)] at hlt
  obtain ⟨hl, hu⟩ := le_divideToEven (n * unit) (Nat.pow 2 (n.log2 + e))
  rw [hquot] at hl hu
  omega

theorem units_place_mul : units (place (n * unit) 1) =
    divideToEven (n * unit) (Nat.pow 2 (n.log2 + e)) * Nat.pow 2 (n.log2 + e) := by
  obtain ⟨hl, hh⟩ := significand_bounds hu h
  rw [place_mul hu h, units_binade hl hh]

theorem units_place_eq (hn : n.log2 ≤ 52) : units (place (n * unit) 1) = n * unit := by
  have hb : binade = Nat.pow 2 (52 - n.log2) * Nat.pow 2 n.log2 := by
    rw [← pow_two_add, Nat.sub_add_cancel hn]
  have hmul : n * unit = n * Nat.pow 2 (52 - n.log2) * Nat.pow 2 (n.log2 + e) := by
    rw [hu, hb, pow_two_add, Nat.mul_assoc, Nat.mul_assoc]
  rw [units_place_mul hu h, hmul, divideToEven_mul _ (pow_two_pos _)]

theorem place_mul_le : place (n * unit) 1 ≤ (n.log2 + e + 2) * binade := by
  obtain ⟨-, hh⟩ := significand_bounds hu h
  rw [place_mul hu h, Nat.add_mul (n.log2 + e)]
  exact Nat.add_le_add_left hh _

theorem unit_le_units_place : unit ≤ units (place (n * unit) 1) := by
  obtain ⟨hl, -⟩ := significand_bounds hu h
  have hp : Nat.pow 2 e ≤ Nat.pow 2 (n.log2 + e) :=
    Nat.pow_le_pow_right (by decide) (Nat.le_add_left e _)
  rw [units_place_mul hu h]
  calc unit = binade * Nat.pow 2 e := hu
    _ ≤ _ := Nat.mul_le_mul hl hp

/-- The relative error of rounding is `2⁻⁵³` at most. -/
theorem units_place_le :
    2 * binade * units (place (n * unit) 1) ≤ (2 * binade + 1) * (n * unit) := by
  have hhalf := divideToEven_mul_le (n * unit) (Nat.pow 2 (n.log2 + e))
  have hstep : binade * Nat.pow 2 (n.log2 + e) ≤ n * unit := by
    rw [hu, Nat.mul_left_comm n, pow_two_add]
    exact Nat.mul_le_mul_left _ (Nat.mul_le_mul_right _ (le_pow_log2 h))
  rw [units_place_mul hu h]
  generalize divideToEven (n * unit) (Nat.pow 2 (n.log2 + e)) * Nat.pow 2 (n.log2 + e) = rounded at *
  calc 2 * binade * rounded = binade * (2 * rounded) := by rw [Nat.mul_comm 2, Nat.mul_assoc]
    _ ≤ binade * (2 * (n * unit) + Nat.pow 2 (n.log2 + e)) := Nat.mul_le_mul_left _ hhalf
    _ = 2 * binade * (n * unit) + binade * Nat.pow 2 (n.log2 + e) := by
      rw [Nat.mul_add, ← Nat.mul_assoc, Nat.mul_comm binade 2]
    _ ≤ 2 * binade * (n * unit) + n * unit := Nat.add_le_add_left hstep _
    _ = (2 * binade + 1) * (n * unit) := by rw [Nat.add_mul, Nat.one_mul]

/-- From `2⁵³` on rounding does not fall below it. -/
theorem le_units_place (hn : 53 ≤ n.log2) : 2 * binade ≤ units (place (n * unit) 1) / unit := by
  obtain ⟨hl, -⟩ := significand_bounds hu h
  have hb : 2 * binade * unit = binade * Nat.pow 2 (53 + e) := by
    have h53 : 2 * binade = Nat.pow 2 53 := rfl
    rw [hu, h53, pow_two_add, Nat.mul_left_comm]
  have hp : Nat.pow 2 (53 + e) ≤ Nat.pow 2 (n.log2 + e) :=
    Nat.pow_le_pow_right (by decide) (Nat.add_le_add_right hn e)
  have hpos : 0 < unit := by
    rw [hu]
    exact Nat.mul_pos (by decide) (pow_two_pos e)
  refine (Nat.le_div_iff_mul_le hpos).mpr ?_
  rw [units_place_mul hu h, hb]
  exact Nat.mul_le_mul hl hp

end Whole

theorem one_eq : one = binade * Nat.pow 2 1022 := by decide +kernel

theorem zero_lt_one_units : 0 < one := by decide +kernel

theorem units_place_of_lt {n : Nat} (hn : n < 0x20000000000000) :
    place (n * one) 1 < limit ∧ units (place (n * one) 1) = n * one := by
  by_cases h : n = 0
  · subst h
    rw [Nat.zero_mul]
    exact ⟨by decide, rfl⟩
  · have hk : n.log2 < 53 := (Nat.log2_lt h).mpr hn
    have hp := place_mul_le one_eq h
    have hl : (n.log2 + 1022 + 2) * binade < limit :=
      Nat.mul_lt_mul_of_pos_right (by omega) (by decide)
    exact ⟨Nat.lt_of_le_of_lt hp hl, units_place_eq one_eq h (Nat.le_of_lt_succ hk)⟩

end Magnitude

namespace Number

open Magnitude

theorem ofNat_zero : ofNat 0 = zero := by
  unfold ofNat
  rw [Nat.zero_mul]
  rfl

theorem isFinite_ofNat {n : Nat} (hn : n < 0x20000000000000) : (ofNat n).isFinite = true := by
  have hf : ofNat n = .finite false ⟨_, (units_place_of_lt hn).1⟩ := dif_pos (units_place_of_lt hn).1
  rw [hf]
  rfl

theorem ofInt_natCast (n : Nat) : ofInt n = ofUnits false (n * one) 1 := by
  have hs : decide ((n : Int) < 0) = false := decide_eq_false (by omega)
  unfold ofInt
  rw [hs, Int.natAbs_natCast]

theorem toInt?_ofInt {n : Nat} (hn : n < 0x20000000000000) : (ofInt n).toInt? = some (n : Int) := by
  have hu := units_place_of_lt hn
  have hf : ofInt n = .finite false ⟨place (n * one) 1, hu.1⟩ := by
    rw [ofInt_natCast]
    exact dif_pos hu.1
  have hr : n * one % one = 0 := Nat.mul_mod_left n one
  have hq : n * one / one = n := Nat.mul_div_cancel n zero_lt_one_units
  rw [hf]
  unfold toInt?
  dsimp only
  rw [hu.2, hr, hq]
  rfl

/-- A larger number is read as another whole number from `2⁵³` on, or as none. -/
theorem le_of_toInt?_ofInt {n : Nat} {i : Int} (hn : 0x20000000000000 ≤ n)
    (hi : (ofInt n).toInt? = some i) : 0x20000000000000 ≤ i := by
  have h : n ≠ 0 := by omega
  have hk : 53 ≤ n.log2 := (Nat.le_log2 h).mpr hn
  have hl := le_units_place one_eq h hk
  rw [ofInt_natCast] at hi
  unfold ofUnits at hi
  split at hi
  · unfold toInt? at hi
    dsimp only at hi
    split at hi
    · have hb : 2 * binade = 0x20000000000000 := rfl
      have hi : ((units (place (n * one) 1) / one : Nat) : Int) = i :=
        Option.some.inj hi
      omega
    · cases hi
  · cases hi

end Number
end DiagramDoc
