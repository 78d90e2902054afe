import DiagramDoc.Number.Numeral
import DiagramDoc.Proofs.Number.Decimal
import DiagramDoc.Proofs.Text.Trim

/-!
# Reading numerals back

The text of a finite number is read back as this number, but a negative zero comes back as zero. Of
the text itself only this much matters to others: an optional minus sign, then digits and points.
-/

namespace DiagramDoc

namespace Decimal

open Magnitude Digits

variable {digits : Text} {negative : Bool}

/-! ### Signs, digits and points -/

theorem readSign_signed {c : Char} (h : c.isDigit = true) (t : Text) :
    readSign (Number.signed negative (c :: t)) = (negative, c :: t) := by
  have hall : ∀ n : Fin 10, digit n ≠ '-' ∧ digit n ≠ '+' := by decide
  obtain ⟨n, rfl⟩ := exists_digit h
  cases negative with
  | true => rfl
  | false =>
    show readSign (digit n :: t) = (false, digit n :: t)
    unfold readSign
    split
    · next hc => exact absurd (List.cons.inj hc).1 (hall n).1
    · next hc => exact absurd (List.cons.inj hc).1 (hall n).2
    · rfl

theorem readDigits_append {rest : Text} (h : ∀ c ∈ digits, c.isDigit = true)
    (hrest : ∀ c, rest.head? = some c → c.isDigit = false) :
    readDigits (digits ++ rest) = (digits, rest) := by
  obtain ⟨htake, hdrop⟩ := Text.span_append h hrest
  unfold readDigits
  rw [htake, hdrop]

theorem read?_digits (hne : digits ≠ []) (h : ∀ c ∈ digits, c.isDigit = true) :
    read? (Number.signed negative digits) = some (negative, ⟨toNat digits, 0⟩) := by
  have hread : readDigits (digits ++ []) = (digits, []) :=
    readDigits_append h (by intro c hc; cases hc)
  obtain ⟨c, t, rfl⟩ := List.exists_cons_of_ne_nil hne
  rw [List.append_nil] at hread
  unfold read?
  rw [readSign_signed (h c List.mem_cons_self)]
  dsimp only
  rw [hread]
  dsimp only
  have hfrac : readFraction [] = ([], []) := rfl
  have hneg : ¬ (c :: t = [] ∧ ([] : Text) = []) := fun h => hne h.1
  rw [hfrac]
  dsimp only
  rw [if_neg hneg, readExponent?, List.append_nil]
  rfl

theorem read?_point {whole fraction : Text} (hne : whole ≠ [])
    (hw : ∀ c ∈ whole, c.isDigit = true) (hf : ∀ c ∈ fraction, c.isDigit = true) :
    read? (Number.signed negative (whole ++ '.' :: fraction)) =
      some (negative, ⟨toNat (whole ++ fraction), -(fraction.length : Int)⟩) := by
  have hread : readDigits (whole ++ '.' :: fraction) = (whole, '.' :: fraction) :=
    readDigits_append hw (by
      intro c hc
      cases hc
      rfl)
  have hfrac : readDigits (fraction ++ []) = (fraction, []) :=
    readDigits_append hf (by intro c hc; cases hc)
  obtain ⟨c, t, rfl⟩ := List.exists_cons_of_ne_nil hne
  rw [List.append_nil] at hfrac
  unfold read?
  rw [List.cons_append, readSign_signed (hw c List.mem_cons_self), ← List.cons_append]
  dsimp only
  rw [hread]
  dsimp only
  rw [readFraction, hfrac]
  dsimp only
  rw [if_neg (by simp), readExponent?, Option.map_some, Int.zero_sub]

/-! ### Positional digits -/

/-- What is written without a sign and without an exponent. -/
structure Plain (t : Text) : Prop where
  head : ∃ c rest, t = c :: rest ∧ c.isDigit = true
  chars : ∀ c ∈ t, c.isDigit = true ∨ c = '.'

theorem plain_digits (hne : digits ≠ []) (h : ∀ c ∈ digits, c.isDigit = true) : Plain digits where
  head := by
    obtain ⟨c, t, rfl⟩ := List.exists_cons_of_ne_nil hne
    exact ⟨c, t, rfl, h c List.mem_cons_self⟩
  chars c hc := .inl (h c hc)

theorem plain_point {whole fraction : Text} (hne : whole ≠ [])
    (hw : ∀ c ∈ whole, c.isDigit = true) (hf : ∀ c ∈ fraction, c.isDigit = true) :
    Plain (whole ++ '.' :: fraction) where
  head := by
    obtain ⟨c, t, rfl⟩ := List.exists_cons_of_ne_nil hne
    exact ⟨c, t ++ '.' :: fraction, rfl, hw c List.mem_cons_self⟩
  chars c hc := by
    rcases List.mem_append.mp hc with hc | hc
    · exact .inl (hw c hc)
    · rcases List.mem_cons.mp hc with hc | hc
      · exact .inr hc
      · exact .inl (hf c hc)

/-- Digits written with a point where the exponent puts it are read with the value they have. -/
theorem read?_positional (hne : digits ≠ []) (h : ∀ c ∈ digits, c.isDigit = true) (e : Int)
    (negative : Bool) :
    Plain (positional digits e) ∧
      ∃ d, read? (Number.signed negative (positional digits e)) = some (negative, d) ∧
        place d.ratio.1 d.ratio.2 =
          place (ratio ⟨toNat digits, e⟩).1 (ratio ⟨toNat digits, e⟩).2 := by
  have hzeros : ∀ k, ∀ c ∈ List.replicate k '0', c.isDigit = true := by
    intro k c hc
    rw [List.eq_of_mem_replicate hc]
    rfl
  cases e with
  | ofNat k =>
    have hall : ∀ c ∈ digits ++ List.replicate k '0', c.isDigit = true :=
      List.forall_mem_append.mpr ⟨h, hzeros k⟩
    have happ : digits ++ List.replicate k '0' ≠ [] := List.append_ne_nil_of_left_ne_nil hne _
    refine ⟨plain_digits happ hall, _, read?_digits happ hall, ?_⟩
    show place (ratio ⟨toNat (digits ++ List.replicate k '0'), 0⟩).1
      (ratio ⟨toNat (digits ++ List.replicate k '0'), 0⟩).2 = _
    rw [toNat_append_zeros, place_ratio_shift, Int.zero_add]
    rfl
  | negSucc k =>
    unfold positional
    dsimp only
    split
    · next hk =>
      -- The point stands among the digits.
      have hlen : (digits.drop (digits.length - (k + 1))).length = k + 1 := by
        rw [List.length_drop]
        omega
      have hwhole : digits.take (digits.length - (k + 1)) ≠ [] := by
        refine List.ne_nil_of_length_pos ?_
        rw [List.length_take]
        omega
      have hw : ∀ c ∈ digits.take (digits.length - (k + 1)), c.isDigit = true :=
        fun c hc => h c (List.mem_of_mem_take hc)
      have hf : ∀ c ∈ digits.drop (digits.length - (k + 1)), c.isDigit = true :=
        fun c hc => h c (List.mem_of_mem_drop hc)
      refine ⟨plain_point hwhole hw hf, _, read?_point hwhole hw hf, ?_⟩
      rw [List.take_append_drop, hlen]
      rfl
    · next hk =>
      have hlen : (List.replicate (k + 1 - digits.length) '0' ++ digits).length = k + 1 := by
        rw [List.length_append, List.length_replicate]
        omega
      have hw : ∀ c ∈ ['0'], c.isDigit = true := hzeros 1
      have hf : ∀ c ∈ List.replicate (k + 1 - digits.length) '0' ++ digits, c.isDigit = true :=
        List.forall_mem_append.mpr ⟨hzeros _, h⟩
      have hz : ['0'] ++ (List.replicate (k + 1 - digits.length) '0' ++ digits) =
          List.replicate (k + 1 - digits.length + 1) '0' ++ digits := rfl
      refine ⟨plain_point (List.cons_ne_nil _ _) hw hf, _,
        read?_point (List.cons_ne_nil _ _) hw hf, ?_⟩
      rw [hz, toNat_zeros_append, hlen]
      rfl

theorem trimmed_digits {d : Decimal} (h : d.coefficient ≠ 0) :
    d.trimmed.1 ≠ [] ∧ ∀ c ∈ d.trimmed.1, c.isDigit = true := by
  constructor
  · intro hnil
    have hzeros := congrArg toNat (dropZeros_append (Digits.ofNat d.coefficient))
    rw [toNat_append_zeros, toNat_ofNat] at hzeros
    have hkept : ((Digits.ofNat d.coefficient).reverse.dropWhile (· == '0')).reverse = [] := hnil
    rw [hkept] at hzeros
    have hz : toNat [] = 0 := rfl
    rw [hz, Nat.zero_mul] at hzeros
    exact h hzeros.symm
  · intro c hc
    have hm := List.mem_reverse.mp hc
    exact isDigit_of_mem_ofNat (List.mem_reverse.mp ((List.dropWhile_suffix _).subset hm))

end Decimal

namespace Number

open Magnitude Digits Decimal

/-! ### Reading numerals -/

/-- The characters of numerals are taken for nothing else. -/
theorem numeral_char {c : Char} (h : c.isDigit = true ∨ c = '.' ∨ c = '-') :
    Text.isBlank c = false ∧ isForeignLetter c = false ∧ c ≠ 'x' ∧ c ≠ 'X' ∧ c ≠ 'I' := by
  have hall : ∀ n : Fin 10, Text.isBlank (digit n) = false ∧ isForeignLetter (digit n) = false ∧
      digit n ≠ 'x' ∧ digit n ≠ 'X' ∧ digit n ≠ 'I' := by decide
  rcases h with h | rfl | rfl
  · obtain ⟨n, rfl⟩ := exists_digit h
    exact hall n
  · decide
  · decide

theorem ofText_numeral {t : Text} (hne : t ≠ [])
    (h : ∀ c ∈ t, c.isDigit = true ∨ c = '.' ∨ c = '-') {negative : Bool} {d : Decimal}
    (hd : Decimal.read? t = some (negative, d)) : ofText t = d.toNumber negative := by
  have hchar := fun c hc => numeral_char (h c hc)
  have htrim : Text.trim t = t := Text.trim_of_forall fun c hc => (hchar c hc).1
  have hsub : ∀ c ∈ t.dropWhile (fun c => c == '+' || c == '-'), c ∈ t :=
    fun c hc => (List.dropWhile_suffix _).subset hc
  have hinf : t.dropWhile (fun c => c == '+' || c == '-') ≠ infinityText := by
    intro he
    have hi : 'I' ∈ t.dropWhile (fun c => c == '+' || c == '-') := he ▸ List.mem_cons_self
    exact (hchar 'I' (hsub 'I' hi)).2.2.2.2 rfl
  have hletter : ¬ (t.dropWhile fun c => c == '+' || c == '-').any isForeignLetter = true := by
    intro ha
    obtain ⟨c, hc, hf⟩ := List.any_eq_true.mp ha
    rw [(hchar c (hsub c hc)).2.1] at hf
    cases hf
  unfold ofText
  rw [htrim]
  split
  · exact absurd rfl hne
  · next hex => exact absurd rfl (hchar 'x' (by simp)).2.2.1
  · next hex => exact absurd rfl (hchar 'X' (by simp)).2.2.2.1
  · dsimp only
    rw [if_neg hinf, if_neg hletter, hd]

theorem ofText_signed {negative : Bool} {t : Text} (h : Plain t) {d : Decimal}
    (hd : Decimal.read? (signed negative t) = some (negative, d)) :
    ofText (signed negative t) = ofUnits negative d.ratio.1 d.ratio.2 := by
  obtain ⟨c, rest, hc, -⟩ := h.head
  have hchars : ∀ c ∈ t, c.isDigit = true ∨ c = '.' ∨ c = '-' :=
    fun c hc => (h.chars c hc).imp_right .inl
  rw [← toNumber_eq]
  cases negative with
  | true =>
    refine ofText_numeral (List.cons_ne_nil _ _) ?_ hd
    exact List.forall_mem_cons.mpr ⟨.inr (.inr rfl), hchars⟩
  | false =>
    refine ofText_numeral (t := t) ?_ hchars hd
    rw [hc]
    exact List.cons_ne_nil _ _

/-! ### The text of a number -/

/-- A number up to the sign of zero, which no text shows. -/
def unsignZero (x : Number) : Number := if x.isZero then zero else x

theorem units_eq_zero {p : Nat} (h : units p = 0) : p = 0 := by
  have hp := place_units p
  rw [h] at hp
  exact hp.symm

/-- A text without a sign is read as the magnitude at a place, whatever sign is put before it. -/
structure Spells (t : Text) (p : Nat) : Prop where
  plain : Plain t
  read : ∀ negative, ∃ d, Decimal.read? (signed negative t) = some (negative, d) ∧
    place d.ratio.1 d.ratio.2 = p

theorem Spells.ofText_signed {t : Text} {p : Fin limit} (h : Spells t p) (negative : Bool) :
    ofText (signed negative t) = .finite negative p := by
  obtain ⟨d, hd, hp⟩ := h.read negative
  rw [Number.ofText_signed h.plain hd]
  unfold ofUnits
  simp only [hp, p.isLt, dite_true]

theorem spells_ofNat {n p : Nat} (h : n * one = units p) : Spells (Digits.ofNat n) p where
  plain := plain_digits (ofNat_ne_nil n) fun c hc => isDigit_of_mem_ofNat hc
  read negative := by
    refine ⟨_, read?_digits (ofNat_ne_nil n) fun c hc => isDigit_of_mem_ofNat hc, ?_⟩
    rw [toNat_ofNat, ratio_eq]
    dsimp only
    show place (n * 1 * one) 1 = p
    rw [Nat.mul_one, h, place_units]

theorem spells_shortest {p : Nat} (h : p ≠ 0) (tie : Tie) :
    Spells (positional (shortest tie p).trimmed.1 (shortest tie p).trimmed.2) p := by
  have hc : (shortest tie p).coefficient ≠ 0 := by
    intro hc
    have hp := place_shortest tie p
    rw [place_of_coefficient_eq_zero hc] at hp
    exact h hp.symm
  obtain ⟨hne, hdigits⟩ := trimmed_digits hc
  refine ⟨(read?_positional hne hdigits _ false).1, fun negative => ?_⟩
  obtain ⟨-, d, hd, hp⟩ := read?_positional hne hdigits (shortest tie p).trimmed.2 negative
  exact ⟨d, hd, by rw [hp, place_trimmed, place_shortest]⟩

theorem toInt?_finite {negative : Bool} {p : Fin limit} {i : Int}
    (h : (finite negative p).toInt? = some i) :
    i.natAbs * one = units p ∧ decide (i < 0) = (negative && i.natAbs != 0) := by
  unfold toInt? at h
  dsimp only at h
  split at h
  · next hr =>
    have hn : units p / one * one = units p := by
      have hd := Nat.div_add_mod' (units p) one
      rw [hr, Nat.add_zero] at hd
      exact hd
    generalize units p / one = n at h hn
    cases negative with
    | true =>
      have hi : -(n : Int) = i := Option.some.inj h
      subst hi
      rw [Int.natAbs_neg, Int.natAbs_natCast]
      refine ⟨hn, ?_⟩
      by_cases hz : n = 0
      · rw [hz]
        rfl
      · have hs : decide (-(n : Int) < 0) = true := decide_eq_true (by omega)
        rw [hs]
        simp [hz]
    | false =>
      have hi : (n : Int) = i := Option.some.inj h
      subst hi
      rw [Int.natAbs_natCast]
      exact ⟨hn, decide_eq_false (by omega)⟩
  · cases h

theorem toInt?_zero (negative : Bool) {p : Fin limit} (h : p.val = 0) :
    (finite negative p).toInt? = some 0 := by
  have hu : units p = 0 := by
    rw [h]
    rfl
  unfold toInt?
  dsimp only
  rw [hu, Nat.zero_mod, Nat.zero_div]
  cases negative <;> rfl

theorem toText_zero (negative : Bool) {p : Fin limit} (h : p.val = 0) :
    (finite negative p).toText = Digits.ofInt 0 := by
  unfold toText
  rw [toInt?_zero negative h]
  rfl

/-- The text of a finite number is a sign, which zero does not have, before its magnitude. -/
theorem toText_finite (negative : Bool) (p : Fin limit) :
    ∃ t, (finite negative p).toText = signed (negative && p.val != 0) t ∧ Spells t p := by
  have hshortest : p.val ≠ 0 → ∃ t, toText.shortestText negative p =
      signed (negative && p.val != 0) t ∧ Spells t p := by
    intro hp
    have hb : (negative && p.val != 0) = negative := by simp [hp]
    refine ⟨_, ?_, spells_shortest hp .up⟩
    rw [hb]
    rfl
  unfold toText
  dsimp only
  split
  · next i hi =>
    obtain ⟨hn, hs⟩ := toInt?_finite hi
    split
    · refine ⟨_, ?_, spells_ofNat hn⟩
      have hz : (i.natAbs != 0) = (p.val != 0) := by
        by_cases hp : p.val = 0
        · rw [toInt?_zero negative hp] at hi
          cases hi
          rw [hp]
          rfl
        · have hnz : i.natAbs ≠ 0 := by
            intro hz
            rw [hz, Nat.zero_mul] at hn
            exact hp (units_eq_zero hn.symm)
          rw [bne_iff_ne.mpr hp, bne_iff_ne.mpr hnz]
      rw [← hz, ← hs]
      unfold Digits.ofInt signed
      simp
    · next hlarge =>
      refine hshortest fun hp => hlarge ?_
      rw [toInt?_zero negative hp] at hi
      cases hi
      decide
  · next hi =>
    refine hshortest fun hp => ?_
    rw [toInt?_zero negative hp] at hi
    cases hi

/-- The text of a finite number is read back as this number, up to the sign of zero. -/
theorem ofText_toText {x : Number} (h : x.isFinite = true) : ofText x.toText = x.unsignZero := by
  cases x with
  | undefined => cases h
  | infinite negative => cases h
  | finite negative p =>
    obtain ⟨t, ht, hs⟩ := toText_finite negative p
    rw [ht, hs.ofText_signed]
    by_cases hp : p.val = 0
    · have hz : p = ⟨0, by decide⟩ := Fin.ext hp
      subst hz
      cases negative <;> rfl
    · have hz : (finite negative p).isZero = false := beq_eq_false_iff_ne.mpr hp
      unfold unsignZero
      rw [hz]
      simp [hp]

theorem mem_toText {x : Number} (h : x.isFinite = true) {c : Char} (hc : c ∈ x.toText) :
    c.isDigit = true ∨ c = '.' ∨ c = '-' := by
  cases x with
  | undefined => cases h
  | infinite negative => cases h
  | finite negative p =>
    obtain ⟨t, ht, hs⟩ := toText_finite negative p
    have hplain := fun c hc => (hs.plain.chars c hc).imp_right (Or.inl (b := c = '-'))
    rw [ht] at hc
    unfold signed at hc
    split at hc
    · rcases List.mem_cons.mp hc with hc | hc
      · exact .inr (.inr hc)
      · exact hplain c hc
    · exact hplain c hc

theorem not_mem_toText {x : Number} (h : x.isFinite = true) {c : Char} (hd : c.isDigit = false)
    (hp : c ≠ '.') (hm : c ≠ '-') : c ∉ x.toText := by
  intro hc
  rcases mem_toText h hc with he | he | he
  · rw [hd] at he
    cases he
  · exact hp he
  · exact hm he

theorem toText_ne_nil {x : Number} (h : x.isFinite = true) : x.toText ≠ [] := by
  cases x with
  | undefined => cases h
  | infinite negative => cases h
  | finite negative p =>
    obtain ⟨t, ht, hs⟩ := toText_finite negative p
    obtain ⟨c, rest, hc, -⟩ := hs.plain.head
    rw [ht, hc]
    unfold signed
    split <;> exact List.cons_ne_nil _ _

theorem trim_toText {x : Number} (h : x.isFinite = true) : Text.trim x.toText = x.toText :=
  Text.trim_of_forall fun _ hc => (numeral_char (mem_toText h hc)).1

theorem toText_unsignZero (x : Number) : x.unsignZero.toText = x.toText := by
  unfold unsignZero
  split
  · next h =>
    cases x with
    | undefined => cases h
    | infinite negative => cases h
    | finite negative p =>
      rw [toText_zero negative (beq_iff_eq.mp h)]
      exact toText_zero false rfl
  · rfl

theorem ofText_blank {c : Char} (h : Text.isBlank c = true) (t : Text) :
    ofText (c :: t) = ofText t := by
  unfold ofText
  rw [Text.trim_cons_blank h]

theorem isFinite_unsignZero {x : Number} (h : x.isFinite = true) : x.unsignZero.isFinite = true := by
  unfold unsignZero
  split
  · rfl
  · exact h

end Number
end DiagramDoc
