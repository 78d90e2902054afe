import DiagramDoc.Number.Decimal
import DiagramDoc.Proofs.Number.Digits
import DiagramDoc.Proofs.Number.Place

/-!
# Decimals and the numbers next to them

A decimal is rounded by its value alone: zeros move freely between the coefficient and the exponent,
and a decimal that is decided by its number of digits would be rounded to the same number. The
shortest decimal of a magnitude is read back as this magnitude.
-/

namespace DiagramDoc

namespace Decimal

open Magnitude Digits

/-! ### The value of a decimal -/

theorem ratio_eq (d : Decimal) :
    d.ratio = (d.coefficient * Nat.pow 10 d.exponent.toNat * one,
      Nat.pow 10 (-d.exponent).toNat) := by
  obtain ⟨c, e⟩ := d
  cases e with
  | ofNat k =>
    have hn : (-(Int.ofNat k)).toNat = 0 := by
      show (-(k : Int)).toNat = 0
      omega
    rw [hn]
    rfl
  | negSucc k =>
    show (c * one, Nat.pow 10 (k + 1)) = (c * 1 * one, Nat.pow 10 (k + 1))
    rw [Nat.mul_one]

theorem ratio_den_pos (d : Decimal) : 0 < d.ratio.2 := by
  rw [ratio_eq]
  exact pow_ten_pos _

/-- Zeros at the end of the coefficient may be counted in the exponent instead. -/
theorem place_ratio_shift (c m : Nat) (e : Int) :
    place (ratio ⟨c * Nat.pow 10 m, e⟩).1 (ratio ⟨c * Nat.pow 10 m, e⟩).2 =
      place (ratio ⟨c, e + m⟩).1 (ratio ⟨c, e + m⟩).2 := by
  have hexp : m + e.toNat + (-(e + m)).toNat = (e + m).toNat + (-e).toNat := by omega
  have hpow := congrArg (Nat.pow 10) hexp
  rw [pow_ten_add, pow_ten_add, pow_ten_add] at hpow
  refine place_congr (ratio_den_pos _) (ratio_den_pos _) ?_
  rw [ratio_eq, ratio_eq]
  generalize one = u
  calc c * Nat.pow 10 m * Nat.pow 10 e.toNat * u * Nat.pow 10 (-(e + m)).toNat
      = c * u * (Nat.pow 10 m * Nat.pow 10 e.toNat * Nat.pow 10 (-(e + m)).toNat) := by
        ac_rfl
    _ = c * u * (Nat.pow 10 (e + m).toNat * Nat.pow 10 (-e).toNat) := by rw [hpow]
    _ = c * Nat.pow 10 (e + m).toNat * u * Nat.pow 10 (-e).toNat := by ac_rfl

/-! ### Decimals decided by their number of digits -/

theorem ofUnits_of_place_eq_zero {num den : Nat} (negative : Bool) (h : place num den = 0) :
    Number.ofUnits negative num den = .signedZero negative := by
  unfold Number.ofUnits Number.signedZero
  simp only [h]
  rfl

theorem ofUnits_of_limit_le {num den : Nat} (negative : Bool) (h : limit ≤ place num den) :
    Number.ofUnits negative num den = .infinite negative := dif_neg (Nat.not_lt.mpr h)

section Size

variable {d : Decimal} {k : Nat}

theorem place_of_tiny (hk : 2 * one ≤ Nat.pow 10 k)
    (h : (Digits.ofNat d.coefficient).length + d.exponent + k ≤ 0) :
    place d.ratio.1 d.ratio.2 = 0 := by
  obtain ⟨c, e⟩ := d
  dsimp only at h
  have hlt := lt_pow_length c
  have he : e.toNat = 0 := by omega
  have hexp : (Digits.ofNat c).length + k ≤ (-e).toNat := by omega
  have hpos : 0 < 2 * one := Nat.mul_pos (by decide) zero_lt_one_units
  rw [ratio_eq]
  refine place_of_lt_half ?_
  dsimp only
  rw [he]
  calc 2 * (c * 1 * one) = c * (2 * one) := by rw [Nat.mul_one, Nat.mul_left_comm]
    _ < Nat.pow 10 (Digits.ofNat c).length * (2 * one) := Nat.mul_lt_mul_of_pos_right hlt hpos
    _ ≤ Nat.pow 10 (Digits.ofNat c).length * Nat.pow 10 k := Nat.mul_le_mul_left _ hk
    _ = Nat.pow 10 ((Digits.ofNat c).length + k) := (pow_ten_add _ _).symm
    _ ≤ Nat.pow 10 (-e).toNat := Nat.pow_le_pow_right (by decide) hexp

theorem limit_le_place_of_huge {m : Nat} (hm : 1025 ≤ m) (hk : Nat.pow 2 m ≤ Nat.pow 10 k)
    (hc : d.coefficient ≠ 0) (h : k < (Digits.ofNat d.coefficient).length + d.exponent) :
    limit ≤ place d.ratio.1 d.ratio.2 := by
  obtain ⟨c, e⟩ := d
  dsimp only at h hc
  obtain ⟨hlen, hle⟩ := pow_length_le hc
  have hexp : k + (-e).toNat ≤ (Digits.ofNat c).length - 1 + e.toNat := by omega
  rw [ratio_eq]
  refine limit_le_place (k := m + 1074) (by omega) ?_
  dsimp only
  refine (Nat.le_div_iff_mul_le (pow_ten_pos _)).mpr ?_
  rw [pow_two_add, Nat.mul_right_comm]
  refine Nat.mul_le_mul_right one ?_
  calc Nat.pow 2 m * Nat.pow 10 (-e).toNat
      ≤ Nat.pow 10 k * Nat.pow 10 (-e).toNat := Nat.mul_le_mul_right _ hk
    _ = Nat.pow 10 (k + (-e).toNat) := (pow_ten_add _ _).symm
    _ ≤ Nat.pow 10 ((Digits.ofNat c).length - 1 + e.toNat) := Nat.pow_le_pow_right (by decide) hexp
    _ = Nat.pow 10 ((Digits.ofNat c).length - 1) * Nat.pow 10 e.toNat := pow_ten_add _ _
    _ ≤ c * Nat.pow 10 e.toNat := Nat.mul_le_mul_right _ hle

theorem place_of_coefficient_eq_zero (h : d.coefficient = 0) : place d.ratio.1 d.ratio.2 = 0 := by
  have hr : d.ratio.1 = 0 := by rw [ratio_eq, h, Nat.zero_mul, Nat.zero_mul]
  refine place_of_lt_half ?_
  rw [hr, Nat.mul_zero]
  exact ratio_den_pos d

theorem pow_two_le_pow_ten : 2 * one ≤ Nat.pow 10 331 ∧ Nat.pow 2 1025 ≤ Nat.pow 10 310 := by
  decide +kernel

theorem place_of_size_lt (h : (Digits.ofNat d.coefficient).length + d.exponent < -330) :
    place d.ratio.1 d.ratio.2 = 0 := place_of_tiny pow_two_le_pow_ten.1 (by omega)

theorem limit_le_place_of_lt_size (hc : d.coefficient ≠ 0)
    (h : 310 < (Digits.ofNat d.coefficient).length + d.exponent) :
    limit ≤ place d.ratio.1 d.ratio.2 :=
  limit_le_place_of_huge (Nat.le_refl 1025) pow_two_le_pow_ten.2 hc h

end Size

/-- A decimal is read as the number nearest to its value. -/
theorem toNumber_eq (negative : Bool) (d : Decimal) :
    d.toNumber negative = Number.ofUnits negative d.ratio.1 d.ratio.2 := by
  unfold toNumber
  dsimp only
  split
  · next h =>
    refine (ofUnits_of_place_eq_zero negative ?_).symm
    exact h.elim place_of_coefficient_eq_zero place_of_size_lt
  · next hz =>
    split
    · next h =>
      have hc : d.coefficient ≠ 0 := fun hc => hz (.inl hc)
      exact (ofUnits_of_limit_le negative (limit_le_place_of_lt_size hc h)).symm
    · rfl

/-! ### The shortest decimal of a magnitude -/

theorem place_of_readsAs {p : Nat} {d : Decimal} (h : readsAs p d = true) :
    place d.ratio.1 d.ratio.2 = p := by
  unfold readsAs at h
  exact beq_iff_eq.mp h

theorem nearer_of_both {P : Decimal → Prop} {lower upper : Decimal} (hl : P lower) (hu : P upper)
    (tie : Tie) (side : Ordering) : P (nearer tie side lower upper) := by
  unfold nearer
  cases side with
  | lt => exact hl
  | gt => exact hu
  | eq =>
    dsimp only
    split
    · exact hu
    · exact hl

theorem readsAs_of_nearest? {tie : Tie} {p : Nat} {e : Int} {d : Decimal}
    (h : nearest? tie p e = some d) : readsAs p d = true := by
  unfold nearest? at h
  -- Nothing is computed here: which decimals are candidates and what they read as is left open.
  generalize readsAs p = reads at h ⊢
  dsimp only at h
  split at h
  · next hl =>
    split at h
    · next hu =>
      cases h
      exact nearer_of_both (P := fun d => reads d = true) hl hu tie _
    · cases h
      exact hl
  · split at h
    · next hu =>
      cases h
      exact hu
    · cases h

theorem pow_five_mul_one : Nat.pow 5 1074 * one = Nat.pow 10 1074 := by decide +kernel

theorem place_exact (p : Nat) : place (exact p).ratio.1 (exact p).ratio.2 = p := by
  have he : (exact p).exponent.toNat = 0 := rfl
  have hn : (-(exact p).exponent).toNat = 1074 := rfl
  have hten : Nat.pow 10 0 = 1 := rfl
  rw [← place_units p]
  refine place_congr (ratio_den_pos _) Nat.zero_lt_one ?_
  rw [ratio_eq, place_units, he, hn, hten, ← pow_five_mul_one]
  unfold exact
  dsimp only
  rw [Nat.mul_one, Nat.mul_one, Nat.mul_assoc]

theorem place_shortest (tie : Tie) (p : Nat) :
    place (shortest tie p).ratio.1 (shortest tie p).ratio.2 = p := by
  unfold shortest
  dsimp only
  cases h : (List.range 17).findSome? fun extra =>
      nearest? tie p (leadingExponent (units p) - (extra : Nat)) with
  | none => exact place_exact p
  | some d =>
    obtain ⟨extra, -, hd⟩ := List.exists_of_findSome?_eq_some h
    exact place_of_readsAs (readsAs_of_nearest? hd)

theorem place_trimmed (d : Decimal) :
    place (ratio ⟨Digits.toNat d.trimmed.1, d.trimmed.2⟩).1
        (ratio ⟨Digits.toNat d.trimmed.1, d.trimmed.2⟩).2 =
      place d.ratio.1 d.ratio.2 := by
  have hzeros := congrArg Digits.toNat (dropZeros_append (Digits.ofNat d.coefficient))
  rw [toNat_append_zeros, toNat_ofNat] at hzeros
  unfold trimmed
  dsimp only
  rw [← place_ratio_shift, hzeros]

end Decimal
end DiagramDoc
