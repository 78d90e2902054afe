import DiagramDoc.Json.Reader
import DiagramDoc.Json.Printer
import DiagramDoc.Proofs.Json.Scale
import DiagramDoc.Proofs.Number.Numeral

/-!
# Numbers in JSON text, read back

The text of a number is a numeral, and a numeral is read as its value wherever it ends. Whole
numbers come back exactly. Of other numbers this much is sure: a finite one comes back as a finite
one, though its last bits may differ.
-/

namespace DiagramDoc.Json

open Magnitude Digits Decimal

/-- What follows a number and does not belong to it. -/
def Stops (rest : Text) : Prop :=
  ∀ c ∈ rest.head?, c.isDigit = false ∧ c ≠ '.' ∧ c ≠ 'e' ∧ c ≠ 'E'

namespace Numeral

def fractionText : Option Text → Text
  | none => []
  | some digits => '.' :: digits

def exponentText : Option Int → Text
  | none => []
  | some e => 'e' :: (if e < 0 then '-' else '+') :: Digits.ofNat e.natAbs

def text (n : Numeral) : Text :=
  Number.signed n.negative (n.whole ++ (fractionText n.fraction ++ exponentText n.exponent))

/-- A numeral as the grammar of JSON has it. -/
structure WellFormed (n : Numeral) : Prop where
  whole_ne : n.whole ≠ []
  whole : ∀ c ∈ n.whole, c.isDigit = true
  no_zeros : n.whole.head? = some '0' → n.whole.length = 1
  fraction : ∀ digits ∈ n.fraction, digits ≠ [] ∧ ∀ c ∈ digits, c.isDigit = true

/-! ### Reading the text of a numeral -/

/-- Reads a number behind its sign. -/
def readUnsigned? (negative : Bool) (t : Text) : Option (Json × Text) :=
  let (whole, t) := readDigits t
  if whole = [] ∨ (whole.head? = some '0' ∧ 1 < whole.length) then none
  else do
    let (fraction, t) ← Json.readFraction? t
    let (exponent, t) ← Json.readExponent? t
    let value ← Numeral.value? ⟨negative, whole, fraction, exponent⟩
    some (value, t)

theorem readNumber?_unsigned {c : Char} (h : c ≠ '-') (t : Text) :
    readNumber? (c :: t) = readUnsigned? false (c :: t) := by
  unfold readNumber?
  split
  next negative u he =>
    split at he
    · next hc => exact absurd (List.cons.inj hc).1 h
    · cases he
      rfl

section Read

variable {rest : Text} (hrest : Stops rest)

include hrest

theorem readExponent?_text (e : Option Int) :
    Json.readExponent? (exponentText e ++ rest) = some (e, rest) := by
  cases e with
  | none =>
    cases rest with
    | nil => rfl
    | cons c rest =>
      obtain ⟨-, -, he, hE⟩ := hrest c rfl
      exact if_neg (not_or.mpr ⟨he, hE⟩)
  | some e =>
    have hdigits : readDigits (Digits.ofNat e.natAbs ++ rest) = (Digits.ofNat e.natAbs, rest) :=
      readDigits_append (fun c hc => isDigit_of_mem_ofNat hc) fun c hc => (hrest c hc).1
    have hsign : readSign ((if e < 0 then '-' else '+') :: (Digits.ofNat e.natAbs ++ rest)) =
        (decide (e < 0), Digits.ofNat e.natAbs ++ rest) := by
      by_cases he : e < 0 <;> simp [he, readSign]
    have hvalue : (if decide (e < 0) = true then -(e.natAbs : Int) else e.natAbs) = e := by
      by_cases he : e < 0
      · simp only [he, decide_true, if_true]
        omega
      · simp only [he, decide_false, Bool.false_eq_true, if_false]
        omega
    show Json.readExponent? ('e' :: (if e < 0 then '-' else '+') ::
      (Digits.ofNat e.natAbs ++ rest)) = _
    unfold Json.readExponent?
    dsimp only
    rw [if_pos (Or.inl rfl), hsign]
    dsimp only
    rw [hdigits]
    dsimp only
    rw [if_neg (ofNat_ne_nil _), toNat_ofNat, hvalue]

theorem head?_exponentText (e : Option Int) :
    ∀ c ∈ (exponentText e ++ rest).head?, c.isDigit = false ∧ c ≠ '.' := by
  cases e with
  | none => exact fun c hc => ⟨(hrest c hc).1, (hrest c hc).2.1⟩
  | some e =>
    rintro c ⟨⟩
    decide

theorem readFraction?_text {fraction : Option Text}
    (hf : ∀ digits ∈ fraction, digits ≠ [] ∧ ∀ c ∈ digits, c.isDigit = true) (e : Option Int) :
    Json.readFraction? (fractionText fraction ++ (exponentText e ++ rest)) =
      some (fraction, exponentText e ++ rest) := by
  have hhead := head?_exponentText hrest e
  cases fraction with
  | none =>
    generalize exponentText e ++ rest = t at hhead
    show Json.readFraction? t = some (none, t)
    unfold Json.readFraction?
    split
    · exact absurd rfl (hhead '.' rfl).2
    · rfl
  | some digits =>
    obtain ⟨hne, hall⟩ := hf digits rfl
    have hdigits := readDigits_append hall fun c hc => (hhead c hc).1
    show (if (readDigits (digits ++ (exponentText e ++ rest))).1 = [] then none
      else some (some (readDigits (digits ++ (exponentText e ++ rest))).1,
        (readDigits (digits ++ (exponentText e ++ rest))).2)) = _
    rw [hdigits]
    exact if_neg hne

theorem readUnsigned?_text {n : Numeral} (h : n.WellFormed) :
    readUnsigned? n.negative
        (n.whole ++ (fractionText n.fraction ++ (exponentText n.exponent ++ rest))) =
      n.value?.map fun v => (v, rest) := by
  have hstop : ∀ c, (fractionText n.fraction ++ (exponentText n.exponent ++ rest)).head? = some c →
      c.isDigit = false := by
    cases n.fraction with
    | none => exact fun c hc => (head?_exponentText hrest n.exponent c hc).1
    | some digits =>
      rintro c ⟨⟩
      decide
  have hok : ¬ (n.whole = [] ∨ n.whole.head? = some '0' ∧ 1 < n.whole.length) := by
    rintro (he | ⟨hhead, hlong⟩)
    · exact h.whole_ne he
    · exact absurd (h.no_zeros hhead) (Nat.ne_of_gt hlong)
  unfold readUnsigned?
  rw [readDigits_append h.whole hstop]
  dsimp only
  rw [if_neg hok, readFraction?_text hrest h.fraction]
  simp only [Option.bind_eq_bind, Option.bind_some]
  rw [readExponent?_text hrest]
  simp only [Option.bind_some]
  cases value? n <;> rfl

theorem readNumber?_text {n : Numeral} (h : n.WellFormed) :
    readNumber? (n.text ++ rest) = n.value?.map fun v => (v, rest) := by
  have hminus : ∀ d : Fin 10, digit d ≠ '-' := by decide
  have htext : n.text ++ rest = Number.signed n.negative
      (n.whole ++ (fractionText n.fraction ++ (exponentText n.exponent ++ rest))) := by
    unfold text Number.signed
    split <;> simp
  rw [← readUnsigned?_text hrest h, htext]
  cases n.negative with
  | true => rfl
  | false =>
    obtain ⟨c, more, hwhole⟩ := List.exists_cons_of_ne_nil h.whole_ne
    obtain ⟨d, rfl⟩ := exists_digit (h.whole c (hwhole ▸ List.mem_cons_self))
    rw [hwhole]
    exact readNumber?_unsigned (hminus d) _

end Read

/-! ### The significand -/

theorem gather_of_le {s : Nat} {t : Text}
    (h : t.foldl (fun n c => n * 10 + Digits.value c) s ≤ significandLimit) :
    gather s t = (t.foldl (fun n c => n * 10 + Digits.value c) s, []) := by
  induction t generalizing s with
  | nil => rfl
  | cons c t ih =>
    have hnext : s * 10 + Digits.value c ≤
        t.foldl (fun n c => n * 10 + Digits.value c) (s * 10 + Digits.value c) :=
      Nat.le_trans (Nat.le_mul_of_pos_right _ (pow_ten_pos _)) (mul_pow_le_foldl _ t)
    rw [List.foldl_cons] at h
    rw [gather, if_neg (Nat.not_lt.mpr (Nat.le_trans hnext h)), List.foldl_cons]
    exact ih h

/-- What is gathered fits, and with zeros for the digits that are left it is not too large. -/
theorem gather_spec {s : Nat} {t : Text} (h : s ≤ significandLimit) :
    (gather s t).1 ≤ significandLimit ∧ (gather s t).2.length ≤ t.length ∧
      (gather s t).1 * Nat.pow 10 (gather s t).2.length ≤
        t.foldl (fun n c => n * 10 + Digits.value c) s := by
  induction t generalizing s with
  | nil => exact ⟨h, Nat.le_refl _, Nat.le_of_eq (Nat.mul_one s)⟩
  | cons c t ih =>
    rw [gather]
    split
    · exact ⟨h, Nat.le_refl _, mul_pow_le_foldl s (c :: t)⟩
    · next hnext =>
      obtain ⟨hfits, hlen, hle⟩ := ih (Nat.le_of_not_lt hnext)
      exact ⟨hfits, Nat.le_succ_of_le hlen, hle⟩

/-! ### The value of a numeral -/

/-- The decimal that a numeral stands for, its sign aside. -/
def decimal (n : Numeral) : Decimal :=
  ⟨Digits.toNat (n.whole ++ n.fraction.getD []),
    n.exponent.getD 0 - (n.fraction.getD []).length⟩

/-- A numeral that is not whole, and whose decimal is nearest to the magnitude at a place. -/
structure Denotes (n : Numeral) (p : Nat) : Prop where
  wellFormed : n.WellFormed
  broken : n.fraction.isSome = true ∨ n.exponent.isSome = true
  fits : Digits.toNat n.whole ≤ significandLimit
  place_eq : place n.decimal.ratio.1 n.decimal.ratio.2 = p

theorem Denotes.value? {n : Numeral} {p : Nat} (h : n.Denotes p) :
    n.value? = n.real?.map .real := by
  have hbroken : ¬ (n.fraction.isNone = true ∧ n.exponent.isNone = true ∧
      Digits.toNat n.whole ≤ significandLimit) := by
    rintro ⟨hf, he, -⟩
    rcases h.broken with hb | hb
    · rw [Option.isNone_iff_eq_none.mp hf] at hb
      cases hb
    · rw [Option.isNone_iff_eq_none.mp he] at hb
      cases hb
  unfold Numeral.value?
  exact if_neg hbroken

theorem lt_safe_of_place_lt {d : Decimal} (h : place d.ratio.1 d.ratio.2 < limit - 3) {s k : Nat}
    {e : Int} (hs : s ≤ significandLimit) (hk : s * Nat.pow 10 k ≤ d.coefficient)
    (he : e = d.exponent + k) : s * Nat.pow 10 e.toNat * one < safe := by
  by_cases hneg : e < 0
  · have hz : e.toNat = 0 := Int.toNat_of_nonpos (Int.le_of_lt hneg)
    rw [hz]
    refine Nat.lt_of_le_of_lt (Nat.mul_le_mul_right one ?_) significandLimit_lt_safe
    exact Nat.le_trans (Nat.le_of_eq (Nat.mul_one s)) hs
  · refine Nat.lt_of_not_le fun hsafe => Nat.not_le.mpr h ?_
    have hexp : e.toNat + (-d.exponent).toNat = k + d.exponent.toNat := by omega
    have hpow := congrArg (Nat.pow 10) hexp
    rw [pow_ten_add, pow_ten_add] at hpow
    calc limit - 3 = place safe 1 := (place_units _).symm
      _ ≤ place d.ratio.1 d.ratio.2 := place_mono Nat.zero_lt_one (Decimal.ratio_den_pos d) ?_
    rw [Decimal.ratio_eq, Nat.mul_one]
    dsimp only
    generalize one = u at hsafe ⊢
    calc safe * Nat.pow 10 (-d.exponent).toNat
        ≤ s * Nat.pow 10 e.toNat * u * Nat.pow 10 (-d.exponent).toNat :=
          Nat.mul_le_mul_right _ hsafe
      _ = s * (Nat.pow 10 e.toNat * Nat.pow 10 (-d.exponent).toNat) * u := by ac_rfl
      _ = s * Nat.pow 10 k * Nat.pow 10 d.exponent.toNat * u := by rw [hpow, ← Nat.mul_assoc s]
      _ ≤ d.coefficient * Nat.pow 10 d.exponent.toNat * u :=
        Nat.mul_le_mul_right _ (Nat.mul_le_mul_right _ hk)

theorem Denotes.real?_isFinite {n : Numeral} {p : Nat} (h : n.Denotes p) (hp : p < limit - 3) :
    ∃ y, n.real? = some y ∧ y.isFinite = true := by
  have hwhole : gather 0 n.whole = (Digits.toNat n.whole, []) := gather_of_le h.fits
  obtain ⟨hfits, hlen, hle⟩ := gather_spec (t := n.fraction.getD []) h.fits
  have hcoefficient : n.decimal.coefficient = (n.fraction.getD []).foldl
      (fun n c => n * 10 + Digits.value c) (Digits.toNat n.whole) := List.foldl_append
  have hexponent : n.decimal.exponent = n.exponent.getD 0 - (n.fraction.getD []).length := rfl
  have hplace := h.place_eq ▸ hp
  rw [← hcoefficient] at hle
  unfold Numeral.real?
  rw [hwhole]
  dsimp only
  generalize gather (Digits.toNat n.whole) (n.fraction.getD []) = gathered at hfits hlen hle
  obtain ⟨s, dropped⟩ := gathered
  dsimp only [List.length_nil] at hfits hlen hle ⊢
  obtain ⟨y, hy, hfinite⟩ := scale?_of_lt hfits
    (lt_safe_of_place_lt hplace hfits hle (e := ((0 : Nat) : Int) -
      ((n.fraction.getD []).length - dropped.length : Nat) + n.exponent.getD 0) (by omega))
  refine ⟨if n.negative then -y else y, by rw [hy]; rfl, ?_⟩
  cases y with
  | finite negative q => cases n.negative <;> rfl
  | undefined => cases hfinite
  | infinite negative => cases hfinite

/-! ### The numeral of a number -/

/-- A text without a sign is a numeral for the magnitude at a place, whatever sign it gets. -/
def Writes (t : Text) (p : Nat) : Prop :=
  ∃ whole fraction exponent, (∀ negative, Denotes ⟨negative, whole, fraction, exponent⟩ p) ∧
    t = whole ++ (fractionText fraction ++ exponentText exponent)

theorem fits_of_length {whole : Text} (h : ∀ c ∈ whole, c.isDigit = true)
    (hlen : whole.length ≤ 16) : Digits.toNat whole ≤ significandLimit := by
  have hlimit : Nat.pow 10 16 ≤ significandLimit := by decide
  calc Digits.toNat whole ≤ Nat.pow 10 whole.length := Nat.le_of_lt (toNat_lt h)
    _ ≤ Nat.pow 10 16 := Nat.pow_le_pow_right (by decide) hlen
    _ ≤ significandLimit := hlimit

theorem isDigit_of_mem_zeros (k : Nat) : ∀ c ∈ List.replicate k '0', c.isDigit = true := by
  intro c hc
  rw [List.eq_of_mem_replicate hc]
  rfl

/-- Digits, a point and digits. -/
theorem writes_fraction (whole fraction : Text) (hne : whole ≠ []) (hne' : fraction ≠ [])
    (hwhole : ∀ c ∈ whole, c.isDigit = true) (hfraction : ∀ c ∈ fraction, c.isDigit = true)
    (hzero : whole.head? = some '0' → whole.length = 1) (hlen : whole.length ≤ 16) :
    Writes (whole ++ '.' :: fraction)
      (place (Decimal.ratio ⟨Digits.toNat (whole ++ fraction), -(fraction.length : Int)⟩).1
        (Decimal.ratio ⟨Digits.toNat (whole ++ fraction), -(fraction.length : Int)⟩).2) := by
  refine ⟨whole, some fraction, none, fun negative =>
    ⟨⟨hne, hwhole, hzero, ?_⟩, .inl rfl, fits_of_length hwhole hlen, ?_⟩, ?_⟩
  · rintro digits ⟨⟩
    exact ⟨hne', hfraction⟩
  · unfold decimal
    dsimp only [Option.getD]
    rw [Int.zero_sub]
  · unfold fractionText exponentText
    rw [List.append_nil]

/-- The point is between the digits. -/
theorem writes_inside {digits : Text} (hall : ∀ c ∈ digits, c.isDigit = true)
    (hhead : digits.head? ≠ some '0') {k : Nat} (hk : k + 1 < digits.length)
    (hlen : digits.length ≤ k + 17) :
    Writes (digits.take (digits.length - (k + 1)) ++ '.' :: digits.drop (digits.length - (k + 1)))
      (place (Decimal.ratio ⟨Digits.toNat digits, .negSucc k⟩).1
        (Decimal.ratio ⟨Digits.toNat digits, .negSucc k⟩).2) := by
  have hcut : (digits.drop (digits.length - (k + 1))).length = k + 1 := by
    rw [List.length_drop]
    omega
  have hzero : (digits.take (digits.length - (k + 1))).head? ≠ some '0' := by
    rwa [List.head?_take, if_neg (by omega)]
  have hwrites := writes_fraction _ _
    (List.ne_nil_of_length_pos (by rw [List.length_take]; omega))
    (List.ne_nil_of_length_pos (Nat.lt_of_lt_of_eq (Nat.succ_pos k) hcut.symm))
    (fun c hc => hall c (List.mem_of_mem_take hc)) (fun c hc => hall c (List.mem_of_mem_drop hc))
    (absurd · hzero) (by rw [List.length_take]; omega)
  rw [List.take_append_drop, hcut] at hwrites
  exact hwrites

section Digits

variable {digits : Text} (hne : digits ≠ []) (hall : ∀ c ∈ digits, c.isDigit = true)
  (hhead : digits.head? ≠ some '0')

include hne hall

theorem writes_scientific (e : Int) :
    Writes (scientific digits (e + digits.length - 1))
      (place (Decimal.ratio ⟨Digits.toNat digits, e⟩).1
        (Decimal.ratio ⟨Digits.toNat digits, e⟩).2) := by
  obtain ⟨d, more, rfl⟩ := List.exists_cons_of_ne_nil hne
  obtain ⟨hd, hmore⟩ := List.forall_mem_cons.mp hall
  have hwhole : ∀ c ∈ [d], c.isDigit = true := List.forall_mem_singleton.mpr hd
  have hmark : ∀ leading : Int, (if leading < 0 then ['e', '-'] else ['e', '+']) ++
      Digits.ofNat leading.natAbs = exponentText (some leading) := by
    intro leading
    by_cases h : leading < 0 <;> simp [exponentText, h]
  cases more with
  | nil =>
    refine ⟨[d], none, some e, fun negative =>
      ⟨⟨List.cons_ne_nil _ _, hwhole, fun _ => rfl, nofun⟩, .inr rfl,
        fits_of_length hwhole (Nat.le_of_ble_eq_true rfl), ?_⟩, ?_⟩
    · unfold decimal
      dsimp only [Option.getD]
      rw [List.append_nil, List.length_nil, Int.natCast_zero, Int.sub_zero]
    · have hleading : e + ([d] : Text).length - 1 = e := by
        rw [List.length_singleton]
        omega
      rw [hleading, ← hmark]
      rfl
  | cons c more =>
    refine ⟨[d], some (c :: more), some (e + (d :: c :: more).length - 1), fun negative =>
      ⟨⟨List.cons_ne_nil _ _, hwhole, fun _ => rfl, ?_⟩, .inl rfl,
        fits_of_length hwhole (Nat.le_of_ble_eq_true rfl), ?_⟩, ?_⟩
    · rintro fraction ⟨⟩
      exact ⟨List.cons_ne_nil _ _, hmore⟩
    · have hexponent :
          e + ((d :: c :: more).length : Int) - 1 - ((c :: more).length : Nat) = e := by
        rw [List.length_cons]
        omega
      unfold decimal
      dsimp only [Option.getD]
      rw [hexponent]
      rfl
    · rw [← hmark]
      unfold scientific fractionText
      simp

/-- The point is before the digits. -/
theorem writes_before {k : Nat} (hk : digits.length ≤ k + 1) :
    Writes ('0' :: '.' :: (List.replicate (k + 1 - digits.length) '0' ++ digits))
      (place (Decimal.ratio ⟨Digits.toNat digits, .negSucc k⟩).1
        (Decimal.ratio ⟨Digits.toNat digits, .negSucc k⟩).2) := by
  have hlen : (List.replicate (k + 1 - digits.length) '0' ++ digits).length = k + 1 := by
    rw [List.length_append, List.length_replicate]
    omega
  have hwrites := writes_fraction ['0'] (List.replicate (k + 1 - digits.length) '0' ++ digits)
    (List.cons_ne_nil _ _) (List.append_ne_nil_of_right_ne_nil _ hne) (isDigit_of_mem_zeros 1)
    (List.forall_mem_append.mpr ⟨isDigit_of_mem_zeros _, hall⟩) (fun _ => rfl) (by decide)
  have hzeros : ['0'] ++ (List.replicate (k + 1 - digits.length) '0' ++ digits) =
      List.replicate (k + 1 - digits.length + 1) '0' ++ digits := rfl
  rw [hzeros, toNat_zeros_append, hlen] at hwrites
  exact hwrites

include hhead

theorem writes_zeros {k : Nat} (hlen : digits.length + k ≤ 16) :
    Writes (Decimal.positional digits (.ofNat k) ++ ".0".toList)
      (place (Decimal.ratio ⟨Digits.toNat digits, .ofNat k⟩).1
        (Decimal.ratio ⟨Digits.toNat digits, .ofNat k⟩).2) := by
  have hwhole : ∀ c ∈ digits ++ List.replicate k '0', c.isDigit = true :=
    List.forall_mem_append.mpr ⟨hall, isDigit_of_mem_zeros k⟩
  have hzero : (digits ++ List.replicate k '0').head? ≠ some '0' := by
    obtain ⟨d, more, rfl⟩ := List.exists_cons_of_ne_nil hne
    exact hhead
  have hwrites := writes_fraction (digits ++ List.replicate k '0') ['0']
    (List.append_ne_nil_of_left_ne_nil hne _) (List.cons_ne_nil _ _) hwhole
    (isDigit_of_mem_zeros 1) (absurd · hzero) (by rwa [List.length_append, List.length_replicate])
  have hzeros : digits ++ List.replicate k '0' ++ ['0'] = digits ++ List.replicate (k + 1) '0' := by
    rw [List.append_assoc, List.replicate_succ']
  have hshift : -((['0'] : Text).length : Int) + (k + 1 : Nat) = .ofNat k := by
    show (-1 : Int) + (k + 1 : Nat) = k
    omega
  rw [hzeros, toNat_append_zeros, Decimal.place_ratio_shift, hshift] at hwrites
  exact hwrites

theorem writes_point {k : Nat} (hlen : digits.length ≤ k + 17) :
    Writes (Decimal.positional digits (.negSucc k))
      (place (Decimal.ratio ⟨Digits.toNat digits, .negSucc k⟩).1
        (Decimal.ratio ⟨Digits.toNat digits, .negSucc k⟩).2) := by
  unfold Decimal.positional
  dsimp only
  split
  · next hk => exact writes_inside hall hhead hk hlen
  · next hk => exact writes_before hne hall (Nat.le_of_not_lt hk)

end Digits

/-- The shortest digits of a magnitude do not begin with zero. -/
theorem head?_trimmed {d : Decimal} (h : d.coefficient ≠ 0) : d.trimmed.1.head? ≠ some '0' := by
  obtain ⟨c, kept, hkept⟩ := List.exists_cons_of_ne_nil (Decimal.trimmed_digits h).1
  have hdigits : d.trimmed.1 ++ _ = Digits.ofNat d.coefficient :=
    dropZeros_append (Digits.ofNat d.coefficient)
  have hhead := head?_ofNat h
  rw [← hdigits, hkept] at hhead
  rw [hkept]
  exact hhead

theorem writes_shortest {p : Nat} (h : p ≠ 0) {digits : Text} {e : Int}
    (hd : (Decimal.shortest .toEven p).trimmed = (digits, e)) :
    Writes
      (if e + digits.length - 1 < -5 ∨ 15 < e + digits.length - 1 then
        scientific digits (e + digits.length - 1)
      else if 0 ≤ e then Decimal.positional digits e ++ ".0".toList
      else Decimal.positional digits e) p := by
  have hc : (Decimal.shortest .toEven p).coefficient ≠ 0 := by
    intro hc
    have hp := Decimal.place_shortest .toEven p
    rw [Decimal.place_of_coefficient_eq_zero hc] at hp
    exact h hp.symm
  have hp := Decimal.place_trimmed (Decimal.shortest .toEven p)
  have hhead := head?_trimmed hc
  obtain ⟨hne, hall⟩ := Decimal.trimmed_digits hc
  rw [hd, Decimal.place_shortest] at hp
  rw [hd] at hne hall hhead
  dsimp only at hp hne hall hhead
  rw [← hp]
  split
  · exact writes_scientific hne hall e
  · next hrange =>
    split
    · next he =>
      obtain ⟨k, rfl⟩ := Int.eq_ofNat_of_zero_le he
      exact writes_zeros hne hall hhead (by omega)
    · next he =>
      obtain ⟨k, rfl⟩ := Int.eq_negSucc_of_lt_zero (Int.lt_of_not_ge he)
      exact writes_point hne hall hhead (by omega)

theorem writes_realText (negative : Bool) (p : Fin limit) :
    ∃ t, realText (.finite negative p) = Number.signed negative t ∧ Writes t p := by
  refine ⟨_, rfl, ?_⟩
  split
  · next hp =>
    have hwrites := writes_fraction ['0'] ['0'] (List.cons_ne_nil _ _) (List.cons_ne_nil _ _)
      (isDigit_of_mem_zeros 1) (isDigit_of_mem_zeros 1) (fun _ => rfl) (by decide)
    rw [Decimal.place_of_coefficient_eq_zero rfl, ← hp] at hwrites
    exact hwrites
  · next hp => exact writes_shortest hp rfl

theorem exists_denotes (negative : Bool) (p : Fin limit) :
    ∃ n : Numeral, realText (.finite negative p) = n.text ∧ n.Denotes p := by
  obtain ⟨t, ht, whole, fraction, exponent, hn, rfl⟩ := writes_realText negative p
  exact ⟨⟨negative, whole, fraction, exponent⟩, ht, hn negative⟩

end Numeral

/-! ### Numbers that are not whole -/

/-- Whether a number was read to the end of its text and is finite. -/
def isFiniteReal : Option (Json × Text) → Bool
  | some (real y, []) => y.isFinite
  | _ => false

/-- The three largest magnitudes are too near to the limit for the general bound. -/
theorem isFiniteReal_largest : ∀ (negative : Bool) (i : Fin 3),
    isFiniteReal (readNumber? (realText (.finite negative
      ⟨limit - 3 + i, Nat.lt_of_lt_of_le (Nat.add_lt_add_left i.isLt _) (by decide)⟩))) = true := by
  decide +kernel

theorem exists_value? {x : Number} (h : x.isFinite = true) :
    ∃ (n : Numeral) (y : Number), realText x = n.text ∧ n.WellFormed ∧
      n.value? = some (real y) ∧ y.isFinite = true := by
  cases x with
  | undefined => cases h
  | infinite negative => cases h
  | finite negative p =>
    obtain ⟨n, ht, hn⟩ := Numeral.exists_denotes negative p
    by_cases hp : p.val < limit - 3
    · obtain ⟨y, hy, hfinite⟩ := hn.real?_isFinite hp
      exact ⟨n, y, ht, hn.wellFormed, by rw [hn.value?, hy]; rfl, hfinite⟩
    · have hstops : Stops [] := nofun
      have hread := isFiniteReal_largest negative ⟨p.val - (limit - 3), by omega⟩
      have hi : limit - 3 + (p.val - (limit - 3)) = p.val := by omega
      simp only [hi] at hread
      rw [ht, ← List.append_nil n.text,
        Numeral.readNumber?_text hstops hn.wellFormed, hn.value?] at hread
      cases hy : n.real? with
      | none =>
        rw [hy] at hread
        cases hread
      | some y =>
        rw [hy] at hread
        exact ⟨n, y, ht, hn.wellFormed, by rw [hn.value?, hy]; rfl, hread⟩

end DiagramDoc.Json

namespace DiagramDoc.Number

/-- A number as its JSON text is read: near to it, but not always the same. -/
def restored (x : Number) : Number :=
  match Json.readNumber? (Json.realText x) with
  | some (.real y, _) => y
  | _ => x

end DiagramDoc.Number

namespace DiagramDoc.Json

open Digits

theorem restored_eq {x y : Number} {n : Numeral} (ht : realText x = n.text) (hn : n.WellFormed)
    (hy : n.value? = some (real y)) : x.restored = y := by
  have hstops : Stops [] := nofun
  have hread := Numeral.readNumber?_text hstops hn
  unfold Number.restored
  rw [ht, ← List.append_nil n.text, hread, hy]
  rfl

/-- A finite number comes back as a finite number, wherever its text ends. -/
theorem readNumber?_realText {x : Number} (h : x.isFinite = true) {rest : Text}
    (hrest : Stops rest) :
    readNumber? (realText x ++ rest) = some (real x.restored, rest) := by
  obtain ⟨n, y, ht, hn, hy, -⟩ := exists_value? h
  rw [restored_eq ht hn hy, ht, Numeral.readNumber?_text hrest hn, hy]
  rfl

theorem isFinite_restored {x : Number} (h : x.isFinite = true) : x.restored.isFinite = true := by
  obtain ⟨n, y, ht, hn, hy, hfinite⟩ := exists_value? h
  rw [restored_eq ht hn hy]
  exact hfinite

/-! ### Whole numbers -/

/-- Whole numbers of 64 bits, with or without a sign. -/
def IsWide (i : Int) : Prop := -0x8000000000000000 ≤ i ∧ i ≤ 0xFFFFFFFFFFFFFFFF

namespace Numeral

/-- The numeral of a whole number. -/
def ofInt (i : Int) : Numeral := ⟨decide (i < 0), Digits.ofNat i.natAbs, none, none⟩

theorem text_ofInt (i : Int) : (ofInt i).text = Digits.ofInt i := by
  unfold ofInt text Number.signed Digits.ofInt
  simp only [fractionText, exponentText, List.append_nil, decide_eq_true_eq]

theorem wellFormed_ofInt (i : Int) : (ofInt i).WellFormed := by
  refine ⟨ofNat_ne_nil _, fun c hc => isDigit_of_mem_ofNat hc, fun hhead => ?_, nofun⟩
  by_cases hz : i.natAbs = 0
  · show (Digits.ofNat i.natAbs).length = 1
    rw [hz]
    rfl
  · exact absurd hhead (head?_ofNat hz)

theorem value?_ofInt {i : Int} (h : IsWide i) : (ofInt i).value? = some (integer i) := by
  obtain ⟨hlow, hhigh⟩ := h
  have hsize : i.natAbs ≤ significandLimit := by
    show i.natAbs ≤ 0xFFFFFFFFFFFFFFFF
    omega
  unfold ofInt Numeral.value?
  dsimp only
  rw [toNat_ofNat, if_pos ⟨rfl, rfl, hsize⟩]
  by_cases hi : i < 0
  · have hneg : (-(i.natAbs : Int)) = i := by omega
    rw [if_pos (decide_eq_true hi), if_neg (by omega), hneg]
  · have hpos : (i.natAbs : Int) = i := by omega
    rw [if_neg (show ¬ decide (i < 0) = true by simpa using hi), hpos]

end Numeral

theorem readNumber?_ofInt {i : Int} (h : IsWide i) {rest : Text} (hrest : Stops rest) :
    readNumber? (Digits.ofInt i ++ rest) = some (integer i, rest) := by
  rw [← Numeral.text_ofInt, Numeral.readNumber?_text hrest (Numeral.wellFormed_ofInt i),
    Numeral.value?_ofInt h]
  rfl

end DiagramDoc.Json
