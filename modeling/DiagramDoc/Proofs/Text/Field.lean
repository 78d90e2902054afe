import DiagramDoc.Proofs.Text.Escaped

/-!
# Fields

A field is tidy when no blank stands at its ends, line breaks apart, which are written as escapes.
Tidy fields survive the trimming around them, and what is read from a trimmed field is tidy. A
keyword is met in an escaped field just where it is met in the field itself.
-/

namespace DiagramDoc.Text

theorem unifyBreaks_of_not_mem {t : Text} (h : '\r' ∉ t) : unifyBreaks t = t := by
  induction t with
  | nil => rfl
  | cons c t ih =>
    have hc : c ≠ '\r' := Ne.symm (List.ne_of_not_mem_cons h)
    rw [unifyBreaks_cons fun hr => hc hr.1, ih (List.not_mem_of_not_mem_cons h)]

/-- Where no line feed is left, there was no line break. -/
theorem unifyBreaks_of_feed_not_mem {t : Text} (h : '\n' ∉ unifyBreaks t) : unifyBreaks t = t := by
  induction t with
  | nil => rfl
  | cons c t ih =>
    by_cases hr : c = '\r' ∧ t.head? = some '\n'
    · rw [unifyBreaks, if_pos hr] at h
      obtain ⟨u, rfl⟩ := List.head?_eq_some_iff.mp hr.2
      rw [unifyBreaks_cons fun hc => absurd hc.1 (by decide)] at h
      exact absurd List.mem_cons_self h
    · rw [unifyBreaks_cons hr] at h ⊢
      rw [ih (List.not_mem_of_not_mem_cons h)]

/-- What a line does not hold, neither of the parts around a separator holds. -/
theorem not_mem_of_eq_append {line before after : Text} {sep c : Char}
    (h : line = before ++ sep :: after) (hc : c ∉ line) : c ∉ before ∧ c ∉ after := by
  rw [h, List.mem_append, List.mem_cons, not_or, not_or] at hc
  exact ⟨hc.1, hc.2.2⟩

theorem meaning_none : ∀ c ∈ ([] : List Char), escapeMeaning? c = some c := fun _ hc => nomatch hc

theorem meaning_colon : ∀ c ∈ [':'], escapeMeaning? c = some c :=
  List.forall_mem_singleton.mpr rfl

theorem meaning_comma : ∀ c ∈ [','], escapeMeaning? c = some c :=
  List.forall_mem_singleton.mpr rfl

/-! ### Tidy fields -/

/-- No blank but a line feed stands at either end. -/
structure Tidy (t : Text) : Prop where
  head : ∀ c ∈ t.head?, c ≠ '\n' → isBlank c = false
  last : ∀ c ∈ t.getLast?, c ≠ '\n' → isBlank c = false

-- The quantifier ranges over an option: searching all characters would not end.
instance (t : Text) : Decidable (Tidy t) :=
  letI (o : Option Char) : Decidable (∀ c ∈ o, c ≠ '\n' → isBlank c = false) :=
    Option.decidableForallMem o
  decidable_of_iff
    ((∀ c ∈ t.head?, c ≠ '\n' → isBlank c = false) ∧
      ∀ c ∈ t.getLast?, c ≠ '\n' → isBlank c = false)
    ⟨fun h => ⟨h.1, h.2⟩, fun h => ⟨h.head, h.last⟩⟩

/-- What is read from a line without carriage returns. -/
structure Neat (t : Text) : Prop where
  noReturn : '\r' ∉ t
  tidy : Tidy t

instance (t : Text) : Decidable (Neat t) :=
  decidable_of_iff ('\r' ∉ t ∧ Tidy t) ⟨fun h => ⟨h.1, h.2⟩, fun h => ⟨h.noReturn, h.tidy⟩⟩

theorem neat_nil : Neat [] := by decide

theorem Neat.unifyBreaks_eq {t : Text} (h : Neat t) : unifyBreaks t = t :=
  unifyBreaks_of_not_mem h.noReturn

theorem Neat.tidy_unifyBreaks {t : Text} (h : Neat t) : Tidy (unifyBreaks t) := by
  rw [h.unifyBreaks_eq]
  exact h.tidy

theorem forall_mem_escapable {p : Char → Prop} :
    (∀ c ∈ escapable, p c) ↔ p '\\' ∧ p '"' ∧ p '|' ∧ p ':' ∧ p ',' ∧ p '\n' := by
  simp [escapable]

/-- The comment mark is written as it is. -/
theorem not_escapable_percent : ∀ c ∈ ['%', '%'], c ∉ escapable := by
  simp [escapable]

theorem not_escapable_of_isBlank {c : Char} (hb : isBlank c = true) (hn : c ≠ '\n') :
    c ∉ escapable := by
  have hall : ∀ d ∈ escapable, d ≠ '\n' → isBlank d = false :=
    forall_mem_escapable.mpr (by decide)
  intro hc
  rw [hall c hc hn] at hb
  cases hb

theorem escapeMeaning?_of_isBlank {c : Char} (hb : isBlank c = true) : escapeMeaning? c = none := by
  have hmark : ¬ (c = '\\' ∨ c = '"' ∨ c = '|' ∨ c = ':' ∨ c = ',') := by
    rintro (rfl | rfl | rfl | rfl | rfl) <;> exact absurd hb (by decide)
  have hn : c ≠ 'n' := by
    rintro rfl
    exact absurd hb (by decide)
  unfold escapeMeaning?
  rw [if_neg hmark, if_neg hn]

theorem head?_unescape {c : Char} (hb : isBlank c = true) (hn : c ≠ '\n') (t : Text) :
    (unescape t).head? = some c ↔ t.head? = some c := by
  have hc : ∀ d ∈ [c], d ∉ escapable :=
    List.forall_mem_singleton.mpr (not_escapable_of_isBlank hb hn)
  simp only [List.head?_eq_some_iff]
  constructor
  · rintro ⟨u, hu⟩
    obtain ⟨v, hv, -⟩ := (unescape_eq_append hc).mp hu
    exact ⟨v, hv⟩
  · rintro ⟨v, hv⟩
    exact ⟨unescape v, (unescape_eq_append hc).mpr ⟨v, hv, rfl⟩⟩

theorem getLast?_cons_of_ne_nil {c : Char} {t : Text} (h : t ≠ []) :
    (c :: t).getLast? = t.getLast? := by
  obtain ⟨d, s, rfl⟩ := List.exists_cons_of_ne_nil h
  exact List.getLast?_cons_cons

theorem unescape_concat_ne_nil (t : Text) (c : Char) : unescape (t ++ [c]) ≠ [] := by
  rw [Ne, unescape_eq_nil]
  exact List.append_ne_nil_of_right_ne_nil t (List.cons_ne_nil _ _)

/-- The last character stays the last one, unless it belongs to an escape. -/
theorem getLast?_unescape_concat (t : Text) (c : Char) :
    (unescape (t ++ [c])).getLast? = some c ∨
      ((unescape (t ++ [c])).getLast? = some '\n' ∧ escapeMeaning? c ≠ none) := by
  induction t using unescape.induct with
  | case1 d rest m hm ih =>
    rw [List.cons_append, List.cons_append, unescape_meaning hm,
      getLast?_cons_of_ne_nil (unescape_concat_ne_nil rest c)]
    exact ih
  | case2 d rest hm ih =>
    rw [List.cons_append, List.cons_append, unescape_unknown hm,
      getLast?_cons_of_ne_nil (List.cons_ne_nil _ _),
      getLast?_cons_of_ne_nil (unescape_concat_ne_nil rest c)]
    exact ih
  | case3 d rest hd ih =>
    by_cases hb : d = '\\'
    · -- A single backslash may begin an escape of the last character.
      have hrest : rest = [] := by
        cases rest with
        | nil => rfl
        | cons e rest => exact (hd e rest hb rfl).elim
      subst hb hrest
      cases hm : escapeMeaning? c with
      | none =>
        left
        show (unescape ['\\', c]).getLast? = some c
        rw [unescape_unknown hm]
        rfl
      | some m =>
        have hu : unescape ['\\', c] = [m] := unescape_meaning hm []
        rcases (mem_escapable hm).2 with rfl | rfl
        · exact .inl (congrArg List.getLast? hu)
        · exact .inr ⟨congrArg List.getLast? hu, by simp⟩
    · rw [List.cons_append, unescape_cons hb,
        getLast?_cons_of_ne_nil (unescape_concat_ne_nil rest c)]
      exact ih
  | case4 =>
    left
    show (unescape [c]).getLast? = some c
    rw [unescape.eq_2 c [] (by intro _ _ _ h; cases h)]
    rfl

theorem getLast?_unescape {c : Char} (hb : isBlank c = true) (hn : c ≠ '\n') (t : Text) :
    (unescape t).getLast? = some c ↔ t.getLast? = some c := by
  rcases List.eq_nil_or_concat t with rfl | ⟨s, d, rfl⟩
  · exact Iff.rfl
  · rw [List.concat_eq_append, List.getLast?_concat]
    rcases getLast?_unescape_concat s d with hl | ⟨hl, hm⟩
    · rw [hl]
    · rw [hl]
      constructor
      · intro h
        exact absurd (Option.some.inj h).symm hn
      · intro h
        obtain rfl : d = c := Option.some.inj h
        exact absurd (escapeMeaning?_of_isBlank hb) hm

/-- What is read from a trimmed text is tidy. -/
theorem tidy_unescape {t : Text} (h : trim t = t) : Tidy (unescape t) := by
  obtain ⟨hhead, hlast⟩ := trim_eq_self_iff.mp h
  refine ⟨fun c hc hn => eq_false_of_ne_true fun hb => ?_,
    fun c hc hn => eq_false_of_ne_true fun hb => ?_⟩
  · rw [hhead c ((head?_unescape hb hn t).mp hc)] at hb
    cases hb
  · rw [hlast c ((getLast?_unescape hb hn t).mp hc)] at hb
    cases hb

theorem neat_unescape {t : Text} (h : trim t = t) (hr : '\r' ∉ t) : Neat (unescape t) where
  noReturn hm := (mem_unescape hm).elim (fun h => absurd h (by decide)) hr
  tidy := tidy_unescape h

theorem neat_unescape_trim {t : Text} (hr : '\r' ∉ t) : Neat (unescape (trim t)) :=
  neat_unescape (trim_trim t) fun hm => hr (mem_of_mem_trim hm)

/-- A tidy field is written so that trimming does not touch it. -/
theorem trim_escapeFor {seps : List Char} (hs : ∀ c ∈ seps, escapeMeaning? c = some c) {t : Text}
    (h : Tidy (unifyBreaks t)) : trim (escapeFor seps t) = escapeFor seps t := by
  have hne : ∀ c ∈ escapeFor seps t, c ≠ '\n' := by
    rintro c hc rfl
    exact lineFeed_not_mem_escapeFor t hc
  rw [← unescape_escapeFor hs t] at h
  refine trim_eq_self_iff.mpr ⟨fun c hc => eq_false_of_ne_true fun hb => ?_,
    fun c hc => eq_false_of_ne_true fun hb => ?_⟩
  · have hn := hne c (List.mem_of_mem_head? hc)
    rw [h.head c ((head?_unescape hb hn _).mpr hc) hn] at hb
    cases hb
  · have hn := hne c (List.mem_of_mem_getLast? hc)
    rw [h.last c ((getLast?_unescape hb hn _).mpr hc) hn] at hb
    cases hb

/-! ### Keywords -/

/-- What no keyword holds: blanks between words and whatever an escape may stand for. -/
def marks : List Char := ' ' :: '\r' :: escapable

def IsWord (w : Text) : Prop := ∀ c ∈ marks, c ∉ w.map Char.toLower

instance (w : Text) : Decidable (IsWord w) :=
  List.decidableBAll (fun c => c ∉ w.map Char.toLower) marks

theorem IsWord.not_mem {w : Text} (h : IsWord w) {c : Char} (hc : c ∈ marks) : c ∉ w := by
  have hall : ∀ c ∈ marks, c.toLower = c :=
    List.forall_mem_cons.mpr ⟨rfl, List.forall_mem_cons.mpr
      ⟨rfl, forall_mem_escapable.mpr (by decide)⟩⟩
  intro hm
  refine h c hc ?_
  rw [← hall c hc]
  exact List.mem_map_of_mem hm

theorem IsWord.not_escapable {w : Text} (h : IsWord w) {c : Char} (hc : c ∈ w) :
    c ∉ escapable := fun he => h.not_mem (List.mem_cons_of_mem _ (List.mem_cons_of_mem _ he)) hc

theorem sameIgnoringCase_symm {s t : Text} (h : sameIgnoringCase s t = true) :
    sameIgnoringCase t s = true := beq_iff_eq.mpr (beq_iff_eq.mp h).symm

theorem sameIgnoringCase_trans {s t u : Text} (h : sameIgnoringCase s t = true)
    (h' : sameIgnoringCase t u = true) : sameIgnoringCase s u = true :=
  beq_iff_eq.mpr ((beq_iff_eq.mp h).trans (beq_iff_eq.mp h'))

/-- Of names that differ in more than their case, a word is one at most. -/
theorem find?_name_eq_some_iff {α : Type} {all : List α} {name : α → Text} (hall : ∀ a, a ∈ all)
    (hname : ∀ a b, sameIgnoringCase (name a) (name b) = true → a = b) {word : Text} {a : α} :
    all.find? (fun b => sameIgnoringCase (name b) word) = some a ↔
      sameIgnoringCase (name a) word = true := by
  have hfound : ∀ {b : α}, all.find? (fun b => sameIgnoringCase (name b) word) = some b →
      sameIgnoringCase (name b) word = true :=
    fun h => List.find?_some (p := fun b => sameIgnoringCase (name b) word) h
  refine ⟨hfound, fun h => ?_⟩
  cases hb : all.find? fun b => sameIgnoringCase (name b) word with
  | none => exact absurd h (List.find?_eq_none.mp hb a (hall a))
  | some b =>
    have hsame := sameIgnoringCase_trans (hfound hb) (sameIgnoringCase_symm h)
    rw [hname b a hsame]

theorem IsWord.congr {s w : Text} (hw : IsWord w) (h : sameIgnoringCase s w = true) :
    IsWord s := by
  have hm : s.map Char.toLower = w.map Char.toLower := beq_iff_eq.mp h
  unfold IsWord
  rw [hm]
  exact hw

/-- A keyword in some ASCII case begins a text, and a blank other than a line feed follows it. -/
def Opens (w t : Text) : Prop :=
  ∃ s c u, t = s ++ c :: u ∧ sameIgnoringCase s w = true ∧ isBlank c = true ∧ c ≠ '\n'

theorem length_of_sameIgnoringCase {s w : Text} (h : sameIgnoringCase s w = true) :
    s.length = w.length := by
  have hm : s.map Char.toLower = w.map Char.toLower := beq_iff_eq.mp h
  have hl := congrArg List.length hm
  rwa [List.length_map, List.length_map] at hl

theorem opens_iff {w t : Text} :
    Opens w t ↔ sameIgnoringCase (t.take w.length) w = true ∧
      ∃ c ∈ (t.drop w.length).head?, isBlank c = true ∧ c ≠ '\n' := by
  constructor
  · rintro ⟨s, c, u, rfl, hs, hb, hn⟩
    rw [← length_of_sameIgnoringCase hs, List.take_left, List.drop_left]
    exact ⟨hs, c, rfl, hb, hn⟩
  · rintro ⟨hs, c, hc, hb, hn⟩
    obtain ⟨u, hu⟩ := List.head?_eq_some_iff.mp hc
    exact ⟨_, c, u, by rw [← hu, List.take_append_drop], hs, hb, hn⟩

instance (w t : Text) : Decidable (Opens w t) :=
  letI (o : Option Char) : Decidable (∃ c ∈ o, isBlank c = true ∧ c ≠ '\n') :=
    Option.decidableExistsMem o
  decidable_of_iff' _ opens_iff

theorem afterKeyword?_append {s w : Text} (h : sameIgnoringCase s w = true) (t : Text) :
    afterKeyword? w (s ++ t) =
      match t with
      | [] => some []
      | c :: rest => if isBlank c then some (trim rest) else none := by
  unfold afterKeyword?
  rw [← length_of_sameIgnoringCase h, List.take_left, List.drop_left, if_pos h]
  cases t <;> rfl

theorem exists_of_afterKeyword? {w t r : Text} (h : afterKeyword? w t = some r) :
    ∃ s u, t = s ++ u ∧ sameIgnoringCase s w = true ∧ ∀ c ∈ u.head?, isBlank c = true := by
  unfold afterKeyword? at h
  split at h
  · next hs =>
    refine ⟨_, _, (List.take_append_drop w.length t).symm, hs, ?_⟩
    split at h
    · next hd =>
      rw [hd]
      intro c hc
      cases hc
    · next c rest hd =>
      rw [hd]
      intro d hc
      obtain rfl : c = d := Option.some.inj hc
      by_cases hb : isBlank c = true
      · exact hb
      · rw [if_neg hb] at h
        cases h
  · cases h

theorem afterKeyword?_append_blank {w key rest : Text} (hkey : sameIgnoringCase key w = true)
    (hrest : ∀ c ∈ rest.head?, isBlank c = true) :
    afterKeyword? w (key ++ rest) = some (trim rest) := by
  rw [afterKeyword?_append hkey]
  cases rest with
  | nil => rfl
  | cons b rest =>
    have hb := hrest b rfl
    dsimp only
    rw [if_pos hb, trim_cons_blank hb]

theorem afterKeyword?_eq_some_iff {w t r : Text} :
    afterKeyword? w t = some r ↔
      ∃ key rest, sameIgnoringCase key w = true ∧ (∀ c ∈ rest.head?, isBlank c = true) ∧
        t = key ++ rest ∧ r = trim rest := by
  constructor
  · intro h
    obtain ⟨key, rest, rfl, hkey, hrest⟩ := exists_of_afterKeyword? h
    rw [afterKeyword?_append_blank hkey hrest] at h
    exact ⟨key, rest, hkey, hrest, rfl, (Option.some.inj h).symm⟩
  · rintro ⟨key, rest, hkey, hrest, rfl, rfl⟩
    exact afterKeyword?_append_blank hkey hrest

theorem toLower_of_isBlank {c : Char} (h : isBlank c = true) : c.toLower = c := by
  have hupper : ¬ (c.val ≥ 'A'.val ∧ c.val ≤ 'Z'.val) := by
    rintro ⟨hA, hZ⟩
    have hA : 65 ≤ c.toNat := UInt32.le_iff_toNat_le.mp hA
    have hZ : c.toNat ≤ 90 := UInt32.le_iff_toNat_le.mp hZ
    simp only [isBlank, Bool.or_eq_true, Bool.and_eq_true, decide_eq_true_eq, beq_iff_eq] at h
    omega
  exact dif_neg hupper

theorem splitWord_append {s rest : Text} (hs : ∀ c ∈ s, isBlank c = false)
    (hr : ∀ c ∈ rest.head?, isBlank c = true) : splitWord (s ++ rest) = (s, trim rest) := by
  obtain ⟨htake, hdrop⟩ := span_append (p := (!isBlank ·)) (by simpa using hs) (by simpa using hr)
  unfold splitWord
  rw [htake, hdrop]

theorem splitWord_eq_iff {t word after : Text} :
    splitWord t = (word, after) ↔
      ∃ rest, (∀ c ∈ word, isBlank c = false) ∧ (∀ c ∈ rest.head?, isBlank c = true) ∧
        t = word ++ rest ∧ after = trim rest := by
  constructor
  · intro h
    cases h
    refine ⟨t.dropWhile (!isBlank ·), fun c hc => ?_, fun c hc => ?_,
      List.takeWhile_append_dropWhile.symm, rfl⟩
    · have hword := List.all_eq_true.mp List.all_takeWhile c hc
      simpa using hword
    · have hstop := List.head?_dropWhile_not (!isBlank ·) t
      rw [hc] at hstop
      simpa using hstop
  · rintro ⟨rest, hword, hrest, rfl, rfl⟩
    exact splitWord_append hword hrest

/-- A line with another first word than the keyword has nothing behind the keyword. -/
theorem afterKeyword?_eq_none {w s rest : Text} (hw : (w.map Char.toLower).any isBlank = false)
    (hs : ∀ c ∈ s, isBlank c = false) (hr : ∀ c ∈ rest.head?, isBlank c = true)
    (hne : sameIgnoringCase s w = false) : afterKeyword? w (s ++ rest) = none := by
  refine Option.eq_none_iff_forall_not_mem.mpr fun r h => ?_
  obtain ⟨s', u, hline, hsame, hu⟩ := exists_of_afterKeyword? h
  have hmap : s'.map Char.toLower = w.map Char.toLower := beq_iff_eq.mp hsame
  -- No letter is lowered to a blank, so the keyword of the line is a word too.
  have hs' : ∀ c ∈ s', isBlank c = false := by
    refine fun c hc => eq_false_of_ne_true fun hb => ?_
    have hmem : c ∈ w.map Char.toLower := by
      rw [← hmap, ← toLower_of_isBlank hb]
      exact List.mem_map_of_mem hc
    exact List.any_eq_false.mp hw c hmem hb
  have hword : s = s' := by
    calc s = (splitWord (s ++ rest)).1 := by rw [splitWord_append hs hr]
      _ = (splitWord (s' ++ u)).1 := by rw [hline]
      _ = s' := by rw [splitWord_append hs' hu]
  rw [hword, hsame] at hne
  cases hne

/-- A character that no keyword has, in the first word of a line, keeps the line from a keyword. -/
theorem afterKeyword?_eq_none_of_mem {w s rest : Text} {c : Char}
    (hw : (w.map Char.toLower).any isBlank = false) (hs : ∀ c ∈ s, isBlank c = false) (hc : c ∈ s)
    (hcw : c.toLower ∉ w.map Char.toLower) : afterKeyword? w (s ++ rest) = none := by
  obtain ⟨tail, hword, hstop, hrest, -⟩ := (splitWord_eq_iff (t := rest)).mp rfl
  rw [hrest, ← List.append_assoc]
  refine afterKeyword?_eq_none hw (List.forall_mem_append.mpr ⟨hs, hword⟩) hstop ?_
  refine beq_eq_false_iff_ne.mpr fun hsame => hcw ?_
  rw [← hsame]
  exact List.mem_map_of_mem (List.mem_append_left _ hc)

/-- What follows a keyword is trimmed, and a part of its line. -/
theorem afterKeyword?_spec {w t r : Text} (h : afterKeyword? w t = some r) :
    trim r = r ∧ r.Sublist t := by
  unfold afterKeyword? at h
  split at h
  · split at h
    · cases h
      exact ⟨rfl, List.nil_sublist t⟩
    · next c rest hd =>
      split at h
      · cases h
        have hrest : rest.Sublist (t.drop w.length) := hd ▸ List.sublist_cons_self c rest
        exact ⟨trim_trim rest, (trim_sublist rest).trans (hrest.trans (List.drop_sublist _ _))⟩
      · cases h
  · cases h

theorem neat_of_afterKeyword? {w t r : Text} (h : afterKeyword? w t = some r) (hr : '\r' ∉ t) :
    Neat (unescape r) := by
  obtain ⟨htrim, hsub⟩ := afterKeyword?_spec h
  exact neat_unescape htrim fun hm => hr (hsub.subset hm)

section Field

variable {seps : List Char} {p w t rest : Text} {c : Char}

/-- A beginning of a line that ends within its first field begins this field too. -/
theorem eq_append_of_escapeFor (hs : ∀ c ∈ seps, escapeMeaning? c = some c)
    (hp : ∀ c ∈ p, c ∉ escapable) (hc : c ∉ p) {u : Text}
    (h : escapeFor seps t ++ c :: rest = p ++ u) :
    ∃ v, escapeFor seps t = p ++ v ∧ u = v ++ c :: rest ∧ unifyBreaks t = p ++ unescape v := by
  have hu := unescape_escapeFor hs t
  rcases List.append_eq_append_iff.mp h with ⟨v, hv, he⟩ | ⟨v, hv, he⟩
  · cases v with
    | nil =>
      rw [List.append_nil] at hv
      refine ⟨[], by rw [hv, List.append_nil], he.symm, ?_⟩
      rw [← hu, ← hv]
      exact (unescape_eq_append hp).mpr ⟨[], (List.append_nil p).symm, rfl⟩
    | cons d v =>
      obtain ⟨rfl, -⟩ := List.cons.inj he
      exact absurd (hv ▸ List.mem_append_right _ List.mem_cons_self) hc
  · refine ⟨v, hv, he, ?_⟩
    rw [← hu]
    exact (unescape_eq_append hp).mpr ⟨v, hv, rfl⟩

/-- A line is taken for a keyword only when its first field begins with one. -/
theorem afterKeyword?_escapeFor_append (hs : ∀ c ∈ seps, escapeMeaning? c = some c)
    (hw : IsWord w) (hc : c ∈ marks) (ho : ¬ Opens w (unifyBreaks t))
    (he : isBlank c = true → sameIgnoringCase (unifyBreaks t) w = false) :
    afterKeyword? w (escapeFor seps t ++ c :: rest) = none := by
  refine Option.eq_none_iff_forall_not_mem.mpr fun r hr => ?_
  obtain ⟨s, u, hline, hsame, hblank⟩ := exists_of_afterKeyword? hr
  have hsw := hw.congr hsame
  obtain ⟨v, hv, hu, hfield⟩ := eq_append_of_escapeFor hs (fun c hc => hsw.not_escapable hc)
    (hsw.not_mem hc) hline
  cases v with
  | nil =>
    have ht : unifyBreaks t = s := by rw [hfield]; exact List.append_nil s
    have hb : isBlank c = true := hblank c (by rw [hu]; rfl)
    rw [ht, hsame] at he
    cases he hb
  | cons b v =>
    have hb : isBlank b = true := hblank b (by rw [hu]; rfl)
    have hn : b ≠ '\n' := by
      rintro rfl
      exact lineFeed_not_mem_escapeFor t (hv ▸ List.mem_append_right _ List.mem_cons_self)
    have hne : b ≠ '\\' := by
      rintro rfl
      exact absurd hb (by decide)
    exact ho ⟨s, b, unescape v, by rw [hfield, unescape_cons hne], hsame, hb, hn⟩

theorem afterKeyword?_field (hs : ∀ c ∈ seps, escapeMeaning? c = some c)
    (hsame : sameIgnoringCase p w = true) (ht : Tidy (unifyBreaks t)) :
    afterKeyword? w (p ++ ' ' :: escapeFor seps t) = some (escapeFor seps t) := by
  rw [afterKeyword?_append hsame]
  show some (trim (escapeFor seps t)) = some (escapeFor seps t)
  rw [trim_escapeFor hs ht]

theorem escapeFor_of_isWord (hs : ∀ c ∈ seps, escapeMeaning? c = some c) (h : IsWord t) :
    escapeFor seps t = t := by
  induction t with
  | nil => rfl
  | cons c t ih =>
    have hsub : IsWord t := fun d hd hm => h d hd (List.mem_cons_of_mem _ hm)
    have hc : c ∉ marks := fun hm => h.not_mem hm List.mem_cons_self
    have hmeaning : escapeMeaning? c ≠ some c := fun hm =>
      h.not_escapable List.mem_cons_self (mem_escapable hm).1
    cases escapeCase seps c t with
    | dropped hr ht he => exact absurd (hr ▸ by decide) hc
    | lineBreak hn he => exact absurd (hn ▸ by decide) hc
    | marked hm hn hr he =>
      rcases hm with rfl | rfl | rfl | hm
      · exact absurd (by decide) hc
      · exact absurd (by decide) hc
      · exact absurd (by decide) hc
      · exact absurd (hs c hm) hmeaning
    | plain hb hq hv hsep hn hr he => rw [he, ih hsub]

theorem trim_prefix {before after line : Text} (hline : ∀ c ∈ line.head?, isBlank c = false)
    (hl : line = before ++ c :: after) : trim before <+: line := by
  have hstart : trimStart before = before := by
    cases before with
    | nil => rfl
    | cons d before => exact trimStart_cons (hline d (by rw [hl]; rfl)) before
  have hp := trimEnd_isPrefixOf (trimStart before)
  rw [hstart] at hp
  unfold trim
  rw [hl, hstart]
  exact hp.trans (List.prefix_append _ _)

/-- A beginning of what is read from before a separator is a beginning of its line. -/
theorem prefix_of_unescape {before after line : Text} (hp : ∀ c ∈ p, c ∉ escapable)
    (hline : ∀ c ∈ line.head?, isBlank c = false) (hl : line = before ++ c :: after)
    (h : p <+: unescape (trim before)) : p <+: line := by
  obtain ⟨u, hu⟩ := h
  obtain ⟨v, hv, -⟩ := (unescape_eq_append hp).mp hu.symm
  exact (List.prefix_append p v).trans (hv ▸ trim_prefix hline hl)

/-- What is read from before a separator opens with a keyword only if its line does. -/
theorem not_opens_unescape {before after line : Text} (hw : IsWord w)
    (hline : ∀ c ∈ line.head?, isBlank c = false) (hl : line = before ++ c :: after)
    (hk : afterKeyword? w line = none) : ¬ Opens w (unescape (trim before)) := by
  rintro ⟨s, b, u, ht, hsame, hb, hn⟩
  have hsw := hw.congr hsame
  have hplain : ∀ d ∈ s ++ [b], d ∉ escapable := by
    refine List.forall_mem_append.mpr ⟨fun d hd => hsw.not_escapable hd, ?_⟩
    exact List.forall_mem_singleton.mpr (not_escapable_of_isBlank hb hn)
  have hopen : s ++ [b] <+: unescape (trim before) := by
    exact ⟨u, by rw [ht]; exact (List.append_cons s b u).symm⟩
  obtain ⟨tail, htail⟩ := prefix_of_unescape hplain hline hl hopen
  rw [List.append_assoc] at htail
  rw [← htail, afterKeyword?_append hsame] at hk
  simp [hb] at hk

end Field

/-! ### Pieces between separators -/

/-- The trimmed pieces of a text that say something. -/
def trimmedPieces (sep : Char) (t : Text) : List Text :=
  ((splitUnescaped sep t).map trim).filter (· ≠ [])

section Pieces

variable {seps : List Char} {sep : Char} {t : Text}

/-- The pieces of a text without carriage returns are neat once they are unescaped. -/
theorem neat_of_mem_trimmedPieces {piece : Text} (hr : '\r' ∉ t)
    (h : piece ∈ trimmedPieces sep t) : piece ≠ [] ∧ Neat (unescape piece) := by
  obtain ⟨hm, hne⟩ := List.mem_filter.mp h
  obtain ⟨p, hp, rfl⟩ := List.mem_map.mp hm
  refine ⟨of_decide_eq_true hne, neat_unescape_trim fun hc => hr ?_⟩
  exact mem_of_mem_splitUnescaped sep t p hp '\r' hc

theorem trim_blank_escapeFor (hs : ∀ c ∈ seps, escapeMeaning? c = some c)
    (h : Tidy (unifyBreaks t)) : trim (' ' :: escapeFor seps t) = escapeFor seps t := by
  rw [trim_cons_blank (by decide), trim_escapeFor hs h]

theorem cutUnescaped?_blank {sep : Char} (hsep : sep ≠ ' ') (t : Text) :
    cutUnescaped? sep (' ' :: t) =
      (cutUnescaped? sep t).map fun (before, after) => (' ' :: before, after) := by
  rw [cutUnescaped?_cons (by decide), if_neg hsep.symm]

theorem sep_ne_blank (hs : ∀ c ∈ seps, escapeMeaning? c = some c) (hsep : sep ∈ seps) :
    sep ≠ ' ' := by
  rintro rfl
  exact absurd (mem_escapable (hs ' ' hsep)).1 (by decide)

theorem trimmedPieces_field_cons (hs : ∀ c ∈ seps, escapeMeaning? c = some c) (hsep : sep ∈ seps)
    (hb : sep ≠ '\\') (h : Tidy (unifyBreaks t)) (rest : Text) :
    trimmedPieces sep (' ' :: (escapeFor seps t ++ sep :: rest)) =
      [escapeFor seps t].filter (· ≠ []) ++ trimmedPieces sep rest := by
  have hblank := sep_ne_blank hs hsep
  have hcut : cutUnescaped? sep (' ' :: (escapeFor seps t ++ sep :: rest)) =
      some (' ' :: escapeFor seps t, rest) := by
    rw [cutUnescaped?_blank hblank, cutUnescaped?_escapeFor (.inr (.inr hsep)) hb]
    rfl
  unfold trimmedPieces
  rw [splitUnescaped_of_some hcut, List.map_cons, trim_blank_escapeFor hs h, ← List.filter_append]
  rfl

theorem trimmedPieces_field (hs : ∀ c ∈ seps, escapeMeaning? c = some c) (hsep : sep ∈ seps)
    (h : Tidy (unifyBreaks t)) :
    trimmedPieces sep (' ' :: escapeFor seps t) = [escapeFor seps t].filter (· ≠ []) := by
  have hblank := sep_ne_blank hs hsep
  have hcut : cutUnescaped? sep (' ' :: escapeFor seps t) = none := by
    rw [cutUnescaped?_blank hblank, cutUnescaped?_escapeFor_eq_none (.inr (.inr hsep))]
    rfl
  unfold trimmedPieces
  rw [splitUnescaped_of_none hcut, List.map_singleton, trim_blank_escapeFor hs h]

theorem join_fields_cons (seps : List Char) (sep : Char) (field next : Text) (fields : List Text) :
    join [sep, ' '] ((field :: next :: fields).map (escapeFor seps)) =
      escapeFor seps field ++
        sep :: ' ' :: join [sep, ' '] ((next :: fields).map (escapeFor seps)) := by
  rw [List.map_cons, List.map_cons, join_cons_cons]
  rfl

theorem join_fields_singleton (seps : List Char) (sep : Char) (field : Text) :
    join [sep, ' '] ([field].map (escapeFor seps)) = escapeFor seps field :=
  join_singleton _ _

theorem trimmedPieces_join (hs : ∀ c ∈ seps, escapeMeaning? c = some c) (hsep : sep ∈ seps)
    (hb : sep ≠ '\\') {field : Text} {fields : List Text}
    (h : ∀ t ∈ field :: fields, t ≠ [] ∧ Tidy (unifyBreaks t)) :
    trimmedPieces sep (' ' :: join [sep, ' '] ((field :: fields).map (escapeFor seps))) =
      (field :: fields).map (escapeFor seps) := by
  have hkeep : ∀ t ∈ field :: fields,
      [escapeFor seps t].filter (· ≠ []) = [escapeFor seps t] := by
    intro t ht
    have hne : escapeFor seps t ≠ [] := fun he => (h t ht).1 (escapeFor_eq_nil.mp he)
    exact List.filter_cons_of_pos (by simpa using hne)
  induction fields generalizing field with
  | nil =>
    obtain ⟨-, ht⟩ := h field List.mem_cons_self
    rw [join_fields_singleton, trimmedPieces_field hs hsep ht, hkeep field List.mem_cons_self]
    rfl
  | cons next fields ih =>
    obtain ⟨⟨-, ht⟩, hrest⟩ := List.forall_mem_cons.mp h
    obtain ⟨hfield, hkeep⟩ := List.forall_mem_cons.mp hkeep
    rw [join_fields_cons, trimmedPieces_field_cons hs hsep hb ht, ih hrest hkeep, hfield]
    rfl

/-- The last field of a joined text ends it. -/
theorem join_fields_concat (sep : Char) {field : Text} {fields : List Text}
    (hs : ∀ c ∈ seps, escapeMeaning? c = some c)
    (h : ∀ t ∈ field :: fields, t ≠ [] ∧ Tidy (unifyBreaks t)) :
    ∃ s c, join [sep, ' '] ((field :: fields).map (escapeFor seps)) = s ++ [c] ∧
      isBlank c = false := by
  induction fields generalizing field with
  | nil =>
    obtain ⟨hne, ht⟩ := h field List.mem_cons_self
    rw [join_fields_singleton]
    rcases List.eq_nil_or_concat (escapeFor seps field) with he | ⟨s, c, hc⟩
    · exact absurd (escapeFor_eq_nil.mp he) hne
    · rw [List.concat_eq_append] at hc
      have hlast := (trim_eq_self_iff.mp (trim_escapeFor hs ht)).2
      exact ⟨s, c, hc, hlast c (by rw [hc]; exact List.getLast?_concat)⟩
  | cons next fields ih =>
    obtain ⟨s, c, hj, hc⟩ := ih (List.forall_mem_cons.mp h).2
    refine ⟨escapeFor seps field ++ sep :: ' ' :: s, c, ?_, hc⟩
    rw [join_fields_cons, hj]
    simp

theorem feed_not_mem_join_fields {field : Text} {fields : List Text} (hsep : sep ≠ '\n') :
    '\n' ∉ join [sep, ' '] ((field :: fields).map (escapeFor seps)) := by
  induction fields generalizing field with
  | nil =>
    rw [join_fields_singleton]
    exact lineFeed_not_mem_escapeFor field
  | cons next fields ih =>
    have hfield : '\n' ∉ escapeFor seps field := lineFeed_not_mem_escapeFor field
    rw [join_fields_cons]
    simp only [List.mem_append, List.mem_cons, not_or]
    exact ⟨hfield, hsep.symm, by decide, ih⟩

end Pieces

end DiagramDoc.Text
