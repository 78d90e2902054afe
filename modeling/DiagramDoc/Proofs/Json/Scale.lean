import DiagramDoc.Json.Numeral
import DiagramDoc.Proofs.Number.Decimal

/-!
# Scaling by powers of ten

A significand of 64 bits and a power of ten are rounded on their own, and so is their product. The
three errors together are less than two steps of the scale, so a product that is smaller than the
largest magnitude by more is finite.
-/

namespace DiagramDoc.Json

open Magnitude Digits

theorem ofUnits_of_lt {num den : Nat} (negative : Bool) (h : place num den < limit) :
    Number.ofUnits negative num den = .finite negative ⟨place num den, h⟩ := dif_pos h

theorem place_lt_limit {num den p : Nat} (hd : 0 < den) (h : num ≤ units p * den) (hp : p < limit) :
    place num den < limit :=
  calc place num den ≤ place (units p) 1 := place_mono hd Nat.zero_lt_one (by rwa [Nat.mul_one])
    _ = p := place_units p
    _ < limit := hp

/-! ### A bound for exact products -/

/-- The largest magnitude is two steps away. -/
def safe : Nat := units (limit - 3)

/-- Two steps are more than what rounding twice adds. -/
theorem safe_bounds : Nat.pow 10 308 * one ≤ safe ∧ safe < Nat.pow 10 309 * one ∧
    (2 * binade + 1) * ((2 * binade + 1) * safe) ≤
      2 * binade * (2 * binade * units (limit - 1)) := by decide +kernel

theorem place_lt_of_le_safe {n : Nat} (h : n ≤ safe) : place n 1 < limit := by
  have hp : limit - 3 < limit := by decide
  refine place_lt_limit Nat.zero_lt_one ?_ hp
  rw [Nat.mul_one]
  exact h

theorem powerOfTen_le_safe {k : Nat} (h : k ≤ 308) : Nat.pow 10 k * one ≤ safe := by
  have hpow : Nat.pow 10 k ≤ Nat.pow 10 308 := Nat.pow_le_pow_right (by decide) h
  exact Nat.le_trans (Nat.mul_le_mul_right one hpow) safe_bounds.1

theorem significandLimit_lt_safe : significandLimit * one < safe := by
  have hlimit : significandLimit < Nat.pow 10 20 := by decide
  exact Nat.lt_of_lt_of_le (Nat.mul_lt_mul_of_pos_right hlimit zero_lt_one_units)
    (powerOfTen_le_safe (by decide))

theorem place_powerOfTen_lt {k : Nat} (h : k ≤ 308) : place (Nat.pow 10 k * one) 1 < limit :=
  place_lt_of_le_safe (powerOfTen_le_safe h)

theorem place_significand_lt {s : Nat} (h : s ≤ significandLimit) : place (s * one) 1 < limit :=
  place_lt_of_le_safe
    (Nat.le_trans (Nat.mul_le_mul_right one h) (Nat.le_of_lt significandLimit_lt_safe))

/-! ### Dividing -/

theorem isFinite_div_powerOfTen {x : Number} (hx : x.isFinite = true) {k : Nat} (hk : k ≤ 308) :
    (x / powerOfTen k).isFinite = true := by
  cases x with
  | undefined => cases hx
  | infinite negative => cases hx
  | finite negative p =>
    have hten : Nat.pow 10 k ≠ 0 := Nat.ne_of_gt (pow_ten_pos k)
    have hone : one ≤ units (place (Nat.pow 10 k * one) 1) := unit_le_units_place one_eq hten
    have hne : place (Nat.pow 10 k * one) 1 ≠ 0 := by
      intro hz
      rw [hz] at hone
      exact absurd (Nat.lt_of_lt_of_le zero_lt_one_units hone) (by decide)
    have hquot : place (units p * one) (units (place (Nat.pow 10 k * one) 1)) < limit :=
      place_lt_limit (Nat.lt_of_lt_of_le zero_lt_one_units hone) (Nat.mul_le_mul_left _ hone) p.isLt
    have hpower : powerOfTen k = .finite false ⟨_, place_powerOfTen_lt hk⟩ := ofUnits_of_lt false _
    show (Number.div (.finite negative p) (powerOfTen k)).isFinite = true
    rw [hpower]
    unfold Number.div
    dsimp only
    rw [if_neg hne, ofUnits_of_lt _ hquot]
    rfl

theorem isFinite_scaleDown {x : Number} (hx : x.isFinite = true) (k : Nat) :
    (scaleDown x k).isFinite = true := by
  induction x, k using scaleDown.induct with
  | case1 x k hk =>
    rw [scaleDown, dif_pos hk]
    exact isFinite_div_powerOfTen hx hk
  | case2 x k hk hz =>
    rw [scaleDown, dif_neg hk, if_pos hz]
    exact hx
  | case3 x k hk hz ih =>
    rw [scaleDown, dif_neg hk, if_neg hz]
    exact ih (isFinite_div_powerOfTen hx (Nat.le_refl 308))

/-! ### Multiplying -/

theorem product_le {s k : Nat} (hs : s ≠ 0) (h : s * Nat.pow 10 k * one < safe) :
    units (place (s * one) 1) * units (place (Nat.pow 10 k * one) 1) ≤ units (limit - 1) * one := by
  have hpos : 0 < 2 * binade * (2 * binade) := by decide
  have hleft := units_place_le one_eq hs
  have hright := units_place_le one_eq (Nat.ne_of_gt (pow_ten_pos k))
  refine Nat.le_of_mul_le_mul_left ?_ hpos
  generalize units (place (s * one) 1) = a at hleft ⊢
  generalize units (place (Nat.pow 10 k * one) 1) = b at hright ⊢
  have hexact := Nat.mul_le_mul_right one (Nat.le_of_lt h)
  have hbound := Nat.mul_le_mul_right one safe_bounds.2.2
  generalize Nat.pow 10 k = t at hright hexact
  generalize one = u at hleft hright hexact hbound ⊢
  generalize units (limit - 1) = largest at hbound ⊢
  generalize safe = bound at hexact hbound
  calc 2 * binade * (2 * binade) * (a * b) = 2 * binade * a * (2 * binade * b) := by ac_rfl
    _ ≤ (2 * binade + 1) * (s * u) * ((2 * binade + 1) * (t * u)) := Nat.mul_le_mul hleft hright
    _ = (2 * binade + 1) * ((2 * binade + 1) * (s * t * u * u)) := by ac_rfl
    _ ≤ (2 * binade + 1) * ((2 * binade + 1) * (bound * u)) :=
      Nat.mul_le_mul_left _ (Nat.mul_le_mul_left _ hexact)
    _ = (2 * binade + 1) * ((2 * binade + 1) * bound) * u := by ac_rfl
    _ ≤ 2 * binade * (2 * binade * largest) * u := hbound
    _ = 2 * binade * (2 * binade) * (largest * u) := by ac_rfl

theorem scaleUp?_of_lt {s k : Nat} (hs : s ≤ significandLimit)
    (h : s * Nat.pow 10 k * one < safe) :
    ∃ y, scaleUp? (.ofNat s) k = some y ∧ y.isFinite = true := by
  have hsig : Number.ofNat s = .finite false ⟨_, place_significand_lt hs⟩ := ofUnits_of_lt false _
  have hfin : (Number.ofNat s).isFinite = true := by rw [hsig]; rfl
  unfold scaleUp?
  split
  · exact ⟨_, rfl, hfin⟩
  · next hz =>
    have hne : s ≠ 0 := by
      rintro rfl
      exact hz (by rw [Number.ofNat_zero]; rfl)
    have hk : k ≤ 308 := by
      refine Nat.le_of_not_lt fun hlarge => Nat.lt_irrefl safe ?_
      calc safe < Nat.pow 10 309 * one := safe_bounds.2.1
        _ ≤ Nat.pow 10 k * one :=
          Nat.mul_le_mul_right one (Nat.pow_le_pow_right (by decide) hlarge)
        _ ≤ s * Nat.pow 10 k * one :=
          Nat.mul_le_mul_right one (Nat.le_mul_of_pos_left _ (Nat.pos_of_ne_zero hne))
        _ < safe := h
    have hpower : powerOfTen k = .finite false ⟨_, place_powerOfTen_lt hk⟩ := ofUnits_of_lt false _
    have hlt : place (units (place (s * one) 1) * units (place (Nat.pow 10 k * one) 1)) one <
        limit :=
      place_lt_limit zero_lt_one_units (product_le hne h) (by decide)
    have hproduct : Number.ofNat s * powerOfTen k = .finite (false != false) ⟨_, hlt⟩ := by
      show Number.mul (.ofNat s) (powerOfTen k) = _
      rw [hsig, hpower]
      unfold Number.mul
      exact ofUnits_of_lt (false != false) hlt
    dsimp only
    rw [if_neg (Nat.not_lt.mpr hk), hproduct]
    exact ⟨_, rfl, rfl⟩

/-- A significand times a power of ten is finite if the exact product is small enough. -/
theorem scale?_of_lt {s : Nat} {e : Int} (hs : s ≤ significandLimit)
    (h : s * Nat.pow 10 e.toNat * one < safe) :
    ∃ y, scale? s e = some y ∧ y.isFinite = true := by
  cases e with
  | ofNat k => exact scaleUp?_of_lt hs h
  | negSucc k =>
    refine ⟨_, rfl, isFinite_scaleDown ?_ (k + 1)⟩
    have hsig : Number.ofNat s = .finite false ⟨_, place_significand_lt hs⟩ := ofUnits_of_lt false _
    rw [hsig]
    rfl

end DiagramDoc.Json
