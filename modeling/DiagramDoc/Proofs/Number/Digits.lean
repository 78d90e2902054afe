import DiagramDoc.Number.Digits

/-!
# The digits of a number

How many digits a number has, what zeros at either end of digits mean, and that digits are digits.
-/

namespace DiagramDoc

namespace Digits

theorem exists_digit {c : Char} (h : c.isDigit = true) : ∃ n : Fin 10, c = digit n := by
  simp only [Char.isDigit, Bool.and_eq_true, decide_eq_true_eq, UInt32.le_iff_toNat_le] at h
  have hlo : 48 ≤ c.toNat := h.1
  have hhi : c.toNat ≤ 57 := h.2
  refine ⟨⟨c.toNat - 48, by omega⟩, ?_⟩
  have hs : '0'.toNat + (c.toNat - 48) = c.toNat := by
    show 48 + (c.toNat - 48) = c.toNat
    omega
  unfold digit
  rw [hs, Char.ofNat_toNat]

theorem pow_ten_pos (n : Nat) : 0 < Nat.pow 10 n := Nat.pow_pos (by decide)

theorem pow_ten_succ (n : Nat) : Nat.pow 10 (n + 1) = Nat.pow 10 n * 10 := rfl

theorem pow_ten_add (m n : Nat) : Nat.pow 10 (m + n) = Nat.pow 10 m * Nat.pow 10 n :=
  Nat.pow_add 10 m n

/-! ### How many digits -/

/-- A number with `k + 1` digits before the rest lies between two powers of ten. -/
theorem length_before (fuel n : Nat) (rest : Text) (h : n ≤ fuel) :
    ∃ k, (before fuel n rest).length = k + 1 + rest.length ∧ n < Nat.pow 10 (k + 1) ∧
      (n ≠ 0 → Nat.pow 10 k ≤ n) := by
  induction fuel generalizing n rest with
  | zero =>
    obtain rfl : n = 0 := Nat.le_zero.mp h
    exact ⟨0, Nat.add_comm _ _, by decide, fun hn => absurd rfl hn⟩
  | succ fuel ih =>
    rw [before]
    split
    · next hn => exact ⟨0, Nat.add_comm _ _, hn, fun hz => Nat.one_le_iff_ne_zero.mpr hz⟩
    · next hn =>
      obtain ⟨k, hlen, hlt, hle⟩ := ih (n / 10) (digit (n % 10) :: rest) (by omega)
      have hlow := hle (by omega)
      refine ⟨k + 1, ?_, ?_, fun _ => ?_⟩
      · rw [hlen, List.length_cons]
        omega
      · rw [pow_ten_succ]
        omega
      · rw [pow_ten_succ]
        omega

theorem lt_pow_length (n : Nat) : n < Nat.pow 10 (ofNat n).length := by
  obtain ⟨k, hlen, hlt, -⟩ := length_before n n [] (Nat.le_refl n)
  have hl : (ofNat n).length = k + 1 := hlen
  rw [hl]
  exact hlt

theorem pow_length_le {n : Nat} (h : n ≠ 0) :
    (ofNat n).length ≠ 0 ∧ Nat.pow 10 ((ofNat n).length - 1) ≤ n := by
  obtain ⟨k, hlen, -, hle⟩ := length_before n n [] (Nat.le_refl n)
  have hl : (ofNat n).length = k + 1 := hlen
  rw [hl]
  exact ⟨Nat.succ_ne_zero k, hle h⟩

theorem ofNat_ne_nil (n : Nat) : ofNat n ≠ [] := by
  intro h
  have hlt := lt_pow_length n
  rw [h] at hlt
  obtain rfl : n = 0 := Nat.lt_one_iff.mp hlt
  exact absurd h (by decide)

theorem isDigit_of_mem_ofNat {n : Nat} {c : Char} (h : c ∈ ofNat n) : c.isDigit = true :=
  List.all_eq_true.mp (all_isDigit_ofNat n) c h

theorem mul_pow_le_foldl (n : Nat) (digits : Text) :
    n * Nat.pow 10 digits.length ≤ digits.foldl (fun n c => n * 10 + value c) n := by
  induction digits generalizing n with
  | nil => exact Nat.le_of_eq (Nat.mul_one n)
  | cons c digits ih =>
    refine Nat.le_trans ?_ (ih (n * 10 + value c))
    rw [List.length_cons, pow_ten_succ, Nat.mul_comm (Nat.pow 10 digits.length), ← Nat.mul_assoc]
    exact Nat.mul_le_mul_right _ (Nat.le_add_right _ _)

theorem toNat_lt {digits : Text} (h : ∀ c ∈ digits, c.isDigit = true) :
    toNat digits < Nat.pow 10 digits.length := by
  have hvalue : ∀ n : Fin 10, value (digit n) < 10 := by decide
  suffices hfold : ∀ n, digits.foldl (fun n c => n * 10 + value c) n <
      (n + 1) * Nat.pow 10 digits.length by
    have hzero := hfold 0
    rwa [Nat.zero_add, Nat.one_mul] at hzero
  induction digits with
  | nil => exact fun n => Nat.lt_of_lt_of_eq (Nat.lt_succ_self n) (Nat.mul_one _).symm
  | cons c digits ih =>
    intro n
    obtain ⟨hc, hrest⟩ := List.forall_mem_cons.mp h
    obtain ⟨d, rfl⟩ := exists_digit hc
    have hd := hvalue d
    rw [List.foldl_cons, List.length_cons, pow_ten_succ, Nat.mul_comm (Nat.pow 10 digits.length),
      ← Nat.mul_assoc]
    exact Nat.lt_of_lt_of_le (ih hrest _) (Nat.mul_le_mul_right _ (by omega))

/-- Only the digits of zero begin with zero. -/
theorem head?_ofNat {n : Nat} (h : n ≠ 0) : (ofNat n).head? ≠ some '0' := by
  have hdigit : ∀ d : Fin 10, d.val ≠ 0 → digit d ≠ '0' := by decide
  suffices hbefore : ∀ fuel rest, n ≤ fuel → (before fuel n rest).head? ≠ some '0' from
    hbefore n [] (Nat.le_refl n)
  intro fuel
  induction fuel generalizing n with
  | zero => exact fun rest hn => absurd (Nat.le_zero.mp hn) h
  | succ fuel ih =>
    intro rest hn
    rw [before]
    split
    · next hlt => exact fun he => hdigit ⟨n, hlt⟩ h (Option.some.inj he)
    · next hge => exact ih (by omega) _ (by omega)

/-! ### Zeros at the end -/

theorem foldl_zeros (n k : Nat) :
    (List.replicate k '0').foldl (fun n c => n * 10 + value c) n = n * Nat.pow 10 k := by
  induction k generalizing n with
  | zero => exact (Nat.mul_one n).symm
  | succ k ih =>
    have hz : value '0' = 0 := by decide
    rw [List.replicate_succ, List.foldl_cons, ih, hz, Nat.add_zero, pow_ten_succ, Nat.mul_assoc,
      Nat.mul_comm 10]

theorem toNat_append_zeros (digits : Text) (k : Nat) :
    toNat (digits ++ List.replicate k '0') = toNat digits * Nat.pow 10 k := by
  unfold toNat
  rw [List.foldl_append, foldl_zeros]

theorem toNat_zeros_append (k : Nat) (digits : Text) :
    toNat (List.replicate k '0' ++ digits) = toNat digits := by
  unfold toNat
  rw [List.foldl_append, foldl_zeros, Nat.zero_mul]

/-- The digits are those that are kept when zeros are dropped at the end, and then zeros. -/
theorem dropZeros_append (digits : Text) :
    (digits.reverse.dropWhile (· == '0')).reverse ++
      List.replicate (digits.length - (digits.reverse.dropWhile (· == '0')).reverse.length) '0' =
        digits := by
  have hsplit := List.takeWhile_append_dropWhile (p := (· == '0')) (l := digits.reverse)
  have hlen := congrArg List.length hsplit
  have hzeros : digits.reverse.takeWhile (· == '0') =
      List.replicate (digits.reverse.takeWhile (· == '0')).length '0' := by
    refine List.eq_replicate_iff.mpr ⟨rfl, fun c hc => ?_⟩
    exact beq_iff_eq.mp (List.all_eq_true.mp List.all_takeWhile c hc)
  have hk : digits.length - (digits.reverse.dropWhile (· == '0')).reverse.length =
      (digits.reverse.takeWhile (· == '0')).length := by
    rw [List.length_append, List.length_reverse] at hlen
    rw [List.length_reverse]
    omega
  rw [hk]
  calc (digits.reverse.dropWhile (· == '0')).reverse ++
        List.replicate (digits.reverse.takeWhile (· == '0')).length '0'
      = (digits.reverse.takeWhile (· == '0') ++ digits.reverse.dropWhile (· == '0')).reverse := by
        rw [List.reverse_append]
        congr 1
        rw [hzeros, List.length_replicate, List.reverse_replicate]
    _ = digits := by rw [hsplit, List.reverse_reverse]

end Digits

theorem Text.isBlank_of_isDigit {c : Char} (h : c.isDigit = true) : isBlank c = false := by
  have hall : ∀ n : Fin 10, isBlank (Digits.digit n) = false := by decide
  obtain ⟨n, rfl⟩ := Digits.exists_digit h
  exact hall n

end DiagramDoc
