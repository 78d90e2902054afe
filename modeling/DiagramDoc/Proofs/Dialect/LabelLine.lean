import DiagramDoc.Proofs.Dialect.Line

/-!
# Lines that begin with a label

Trimming a line takes the blanks away that its label begins with, up to a line break, which is
escaped. Nothing escapes a comment sign or a keyword: the line of a label that begins with one is a
comment or the line of this keyword, and no other line of a label is.
-/

namespace DiagramDoc.Text

/-! ### Blanks before a label -/

/-- A text without the blanks it begins with; line breaks, which are escaped, are none of these. -/
def unindented (t : Text) : Text := (unifyBreaks t).dropWhile fun c => isBlank c && c != '\n'

theorem unindented_of_tidy {t : Text} (h : Tidy (unifyBreaks t)) : unindented t = unifyBreaks t := by
  unfold unindented
  cases hu : unifyBreaks t with
  | nil => rfl
  | cons c rest =>
    refine List.dropWhile_cons_of_neg fun hc => ?_
    obtain ⟨hb, hn⟩ : isBlank c = true ∧ c ≠ '\n' := by simpa using hc
    rw [h.head c (by rw [hu]; rfl) hn] at hb
    cases hb

theorem unindented_cons {c : Char} {t : Text} (hr : ¬ (c = '\r' ∧ t.head? = some '\n'))
    (hc : isBlank c = true → c = '\n') : unindented (c :: t) = unifyBreaks (c :: t) := by
  unfold unindented
  rw [unifyBreaks_cons hr, List.dropWhile_cons_of_neg]
  simpa using hc

section Field

variable {seps : List Char} (hs : ∀ c ∈ seps, escapeMeaning? c = some c)

include hs

theorem unifyBreaks_eq_nil {t : Text} : unifyBreaks t = [] ↔ t = [] := by
  rw [← unescape_escapeFor hs, unescape_eq_nil, escapeFor_eq_nil]

/-- What is left of an escaped field once its line is trimmed is an escaped field again. -/
theorem exists_trimStart_escapeFor (t : Text) :
    ∃ u, trimStart (escapeFor seps t) = escapeFor seps u ∧ unifyBreaks u = unindented t := by
  induction t with
  | nil => exact ⟨[], rfl, rfl⟩
  | cons c t ih =>
    have hkept : ∀ {b : Char} {rest : Text}, escapeFor seps (c :: t) = b :: rest →
        isBlank b = false → trimStart (escapeFor seps (c :: t)) = escapeFor seps (c :: t) := by
      intro b rest he hb
      rw [he, trimStart_cons hb]
    cases escapeCase seps c t with
    | dropped hc ht he =>
      have hu : unindented (c :: t) = unindented t := by
        unfold unindented
        rw [unifyBreaks, if_pos ⟨hc, ht⟩]
      rw [he, hu]
      exact ih
    | lineBreak hc he =>
      have hr : ¬ (c = '\r' ∧ t.head? = some '\n') := fun hr => absurd (hc ▸ hr.1) (by decide)
      exact ⟨c :: t, hkept he (by decide), (unindented_cons hr fun _ => hc).symm⟩
    | marked hc hn hr he =>
      have hm := escapeMeaning?_of_marked hs hc
      refine ⟨c :: t, hkept he (by decide), (unindented_cons hr fun hb => ?_).symm⟩
      rw [escapeMeaning?_of_isBlank hb] at hm
      cases hm
    | plain hb hq hv hsep hn hr he =>
      cases hblank : isBlank c with
      | false =>
        refine ⟨c :: t, hkept he hblank, (unindented_cons hr fun hc => ?_).symm⟩
        rw [hblank] at hc
        cases hc
      | true =>
        have hu : unindented (c :: t) = unindented t := by
          unfold unindented
          rw [unifyBreaks_cons hr, List.dropWhile_cons_of_pos]
          simpa [hn] using hblank
        rw [he, trimStart_cons_blank hblank, hu]
        exact ih

/-- Nothing is left just of a field that is blank. -/
theorem trim_escapeFor_eq_nil {t : Text} : trim (escapeFor seps t) = [] ↔ unindented t = [] := by
  obtain ⟨u, htrim, hu⟩ := exists_trimStart_escapeFor hs t
  rw [trim_eq_nil, htrim, escapeFor_eq_nil, ← hu, unifyBreaks_eq_nil hs]

end Field

/-- The line of a keyword stays one when it is trimmed, whatever follows the keyword. -/
theorem afterKeyword?_trim {s w : Text} (hsame : sameIgnoringCase s w = true) (ht : trim s = s)
    (hne : s ≠ []) {b : Char} (hb : isBlank b = true) (t : Text) :
    afterKeyword? w (trim (s ++ b :: t)) ≠ none := by
  have hline : trim (s ++ b :: t) = s ++ trimEnd (b :: t) := by
    rcases List.eq_nil_or_concat s with rfl | ⟨r, c, rfl⟩
    · exact absurd rfl hne
    · rw [List.concat_eq_append] at ht ⊢
      have hc : isBlank c = false := (trim_eq_self_iff.mp ht).2 c List.getLast?_concat
      have hr : trimStart r ++ [c] = r ++ [c] := (trim_append_cons hc r []).symm.trans ht
      rw [List.append_assoc, List.singleton_append, trim_append_cons hc, ← List.singleton_append,
        ← List.append_assoc, hr]
  rw [hline, afterKeyword?_append hsame]
  cases he : trimEnd (b :: t) with
  | nil => exact Option.some_ne_none _
  | cons c rest =>
    have hc : c = b := (List.cons_prefix_cons.mp (he ▸ trimEnd_isPrefixOf (b :: t))).1
    dsimp only
    rw [hc, if_pos hb]
    exact Option.some_ne_none _

end DiagramDoc.Text

namespace DiagramDoc.Dialect

open Text

theorem afterKeyword?_trim_section (t : Text) :
    afterKeyword? sectionWord (trim ("section ".toList ++ escape t)) ≠ none :=
  afterKeyword?_trim (s := sectionWord) (by decide) (by decide) (by decide) (by decide) (escape t)

theorem lineFeed_not_mem_titleLines (t : Text) : ∀ line ∈ titleLines t, '\n' ∉ line := by
  unfold titleLines
  split
  · exact fun line hline => absurd hline List.not_mem_nil
  · have he : '\n' ∉ escape t := lineFeed_not_mem_escapeFor t
    exact List.forall_mem_singleton.mpr (by simp [he])

theorem afterKeyword?_titleLines (t : Text) :
    ∀ line ∈ titleLines t, afterKeyword? titleWord (trim line) ≠ none := by
  unfold titleLines
  split
  · exact fun line hline => absurd hline List.not_mem_nil
  · exact List.forall_mem_singleton.mpr (afterKeyword?_trim (s := titleWord) (by decide) (by decide)
      (by decide) (by decide) (escape t))

/-! ### Counting lines -/

/-- What grows by one with each line of a sort counts the lines of this sort. -/
theorem count_foldl {State : Type} {step : State → Text → State} {sort : Text → Bool}
    (count : State → Nat) (h : ∀ s line, count (step s line) = count s + (sort line).toNat)
    (lines : List Text) (s : State) :
    count (lines.foldl step s) = count s + lines.countP sort := by
  induction lines generalizing s with
  | nil => rfl
  | cons line lines ih =>
    rw [List.foldl_cons, ih, h, List.countP_cons, Nat.add_assoc]
    congr 1
    cases sort line with
    | false => simp
    | true => simp [Nat.add_comm]

/-- In a written text the lines of a sort are found among the lines behind its first ones. -/
theorem countP_contentLines_body {header : Text} {first lines rest : List Text}
    {sort : Text → Bool} (hh : '\n' ∉ header) (ht : trim header = header)
    (hc : isContent header = true) (hl : ∀ line ∈ first ++ lines, '\n' ∉ line)
    (hf : ∀ line ∈ first, sort (trim line) = false)
    (h : contentLines (body header (first ++ lines)) = header :: rest) :
    rest.countP sort = (lines.map trim).countP fun line => sort line && isContent line := by
  have hzero : (first.map trim).countP (fun line => sort line && isContent line) = 0 :=
    List.countP_eq_zero.mpr (List.forall_mem_map.mpr fun line hline => by simp [hf line hline])
  rw [contentLines_body hh hl, List.map_cons, ht, List.filter_cons_of_pos hc] at h
  rw [← (List.cons.inj h).2, List.countP_filter, List.map_append, List.countP_append, hzero,
    Nat.zero_add]

/-! ### Labels that begin like another line -/

/-- A label whose line is taken for a comment or for the line of a keyword. -/
def Mistaken (words : List Text) (label : Text) : Prop :=
  ['%', '%'] <+: unindented label ∨ ∃ word ∈ words, Opens word (unindented label)

instance (words : List Text) (label : Text) : Decidable (Mistaken words label) :=
  inferInstanceAs (Decidable (_ ∨ _))

section Field

variable {seps : List Char} {words : List Text} {label u rest : Text} {c : Char}
  (hs : ∀ c ∈ seps, escapeMeaning? c = some c)

include hs

theorem isContent_escapeFor_append_iff (hc : c ≠ '%') :
    isContent (escapeFor seps u ++ c :: rest) = true ↔ ¬ ['%', '%'] <+: unifyBreaks u := by
  refine ⟨?_, isContent_escapeFor_append hs hc⟩
  rintro h ⟨v, hv⟩
  obtain ⟨x, hx, -⟩ := (unescape_eq_append not_escapable_percent).mp
    ((unescape_escapeFor hs u).trans hv.symm)
  unfold isContent at h
  rw [hx, List.append_assoc, stripPrefix?_append] at h
  simp at h

theorem afterKeyword?_escapeFor_append_iff {word : Text} (hw : IsWord word) (hc : c ∈ marks)
    (he : isBlank c = true → sameIgnoringCase (unifyBreaks u) word = false) :
    afterKeyword? word (escapeFor seps u ++ c :: rest) = none ↔ ¬ Opens word (unifyBreaks u) := by
  refine ⟨?_, fun ho => afterKeyword?_escapeFor_append hs hw hc ho he⟩
  rintro h ⟨s, b, v, hv, hsame, hb, hn⟩
  have hsw := hw.congr hsame
  have hall : ∀ d ∈ s ++ [b], d ∉ escapable := List.forall_mem_append.mpr
    ⟨fun d hd => hsw.not_escapable hd,
      List.forall_mem_singleton.mpr (not_escapable_of_isBlank hb hn)⟩
  have hline : unescape (escapeFor seps u) = (s ++ [b]) ++ v := by
    rw [unescape_escapeFor hs, hv, List.append_assoc, List.singleton_append]
  obtain ⟨x, hx, -⟩ := (unescape_eq_append hall).mp hline
  rw [hx, List.append_assoc, List.append_assoc, afterKeyword?_append hsame] at h
  simp [hb] at h

/-- The line of a label counts and belongs to no keyword just if the label is not mistaken. -/
theorem not_mistaken_iff (rest : Text) (hw : ∀ word ∈ words, IsWord word) (hc : c ∈ marks)
    (he : ∀ word ∈ words, isBlank c = true → sameIgnoringCase (unifyBreaks u) word = false)
    (hu : unifyBreaks u = unindented label) :
    isContent (escapeFor seps u ++ c :: rest) = true ∧
        (∀ word ∈ words, afterKeyword? word (escapeFor seps u ++ c :: rest) = none) ↔
      ¬ Mistaken words label := by
  have hp : c ≠ '%' := by
    rintro rfl
    exact absurd hc (by decide)
  unfold Mistaken
  rw [isContent_escapeFor_append_iff hs hp, not_or, not_exists, ← hu]
  refine and_congr_right fun _ => forall_congr' fun word => ?_
  rw [not_and]
  exact forall_congr' fun hm => afterKeyword?_escapeFor_append_iff hs (hw word hm) hc (he word hm)

end Field

end DiagramDoc.Dialect
