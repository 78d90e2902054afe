import DiagramDoc.Dialect.Line
import DiagramDoc.Proofs.Text.Field

/-!
# The lines of a written text

The lines that count can be read off the pieces between line feeds. A body of lines without line
feeds has just these lines, trimmed, as far as they say something. No line of a text holds a
carriage return when all of them belong to line breaks.
-/

namespace DiagramDoc.Dialect

open Text

theorem content_closeLines (pieces : List Text) :
    ((closeLines pieces).map trim).filter isContent = (pieces.map trim).filter isContent := by
  induction pieces with
  | nil => rfl
  | cons piece rest ih =>
    cases rest with
    | nil =>
      rw [closeLines]
      split
      · next h =>
        rw [h]
        rfl
      · rfl
    | cons next rest =>
      rw [closeLines, List.map_cons, trim_dropReturn, List.map_cons, List.filter_cons, ih,
        List.filter_cons]
      intro h
      cases h

theorem contentLines_eq (t : Text) :
    contentLines t = ((splitOn '\n' t).map trim).filter isContent :=
  content_closeLines (splitOn '\n' t)

theorem length_content_le (pieces : List Text) :
    ((pieces.map trim).filter isContent).length ≤ pieces.flatten.length := by
  induction pieces with
  | nil => exact Nat.le_refl 0
  | cons piece pieces ih =>
    rw [List.map_cons, List.filter_cons, List.flatten_cons, List.length_append]
    split
    · next hc =>
      have hpiece : piece ≠ [] := by
        rintro rfl
        exact absurd hc (by decide)
      have hpos := List.length_pos_iff.mpr hpiece
      rw [List.length_cons]
      omega
    · omega

/-- A line that counts has a character, and a line feed divides it from the next one. -/
theorem two_mul_length_contentLines_le (t : Text) :
    2 * (contentLines t).length ≤ t.length + 1 := by
  have hchars := length_content_le (splitOn '\n' t)
  have hpieces := List.length_filter_le isContent ((splitOn '\n' t).map trim)
  have hsum := length_flatten_splitOn '\n' t
  rw [List.length_map] at hpieces
  rw [contentLines_eq]
  omega

theorem contentLines_body {header : Text} {lines : List Text} (hh : '\n' ∉ header)
    (hl : ∀ line ∈ lines, '\n' ∉ line) :
    contentLines (body header lines) = ((header :: lines).map trim).filter isContent := by
  have hb : isBlank ' ' = true := by decide
  have hpieces : ∀ p ∈ header :: lines.map (fun line => ' ' :: ' ' :: line), '\n' ∉ p := by
    refine List.forall_mem_cons.mpr ⟨hh, List.forall_mem_map.mpr fun line hline => ?_⟩
    have hn := hl line hline
    simp [hn]
  have htrim : (lines.map fun line => ' ' :: ' ' :: line).map trim = lines.map trim := by
    rw [List.map_map]
    refine List.map_congr_left fun line _ => ?_
    show trim (' ' :: ' ' :: line) = trim line
    rw [trim_cons_blank hb, trim_cons_blank hb]
  rw [contentLines_eq]
  unfold body
  rw [splitOn_join hpieces, List.map_cons, htrim, List.map_cons]

/-- Written lines that say something are the lines of their text, trimmed. -/
theorem contentLines_written {header : Text} {lines : List Text} (hh : '\n' ∉ header)
    (ht : trim header = header) (hc : isContent header = true)
    (hl : ∀ line ∈ lines, '\n' ∉ line ∧ isContent (trim line) = true) :
    contentLines (body header lines) = header :: lines.map trim := by
  have hall : ∀ line ∈ lines.map trim, isContent line = true :=
    List.forall_mem_map.mpr fun line hline => (hl line hline).2
  rw [contentLines_body hh fun line hline => (hl line hline).1, List.map_cons, ht,
    List.filter_cons_of_pos hc, List.filter_eq_self.mpr hall]

/-- A written line that is read as it stands. -/
structure Written (line : Text) : Prop where
  noFeed : '\n' ∉ line
  trimmed : trim line = line
  content : isContent line = true

theorem contentLines_of_written {header : Text} {lines : List Text} (hh : Written header)
    (hl : ∀ line ∈ lines, Written line) : contentLines (body header lines) = header :: lines := by
  have hall : ∀ line ∈ lines, '\n' ∉ line ∧ isContent (trim line) = true := fun line hline =>
    ⟨(hl line hline).noFeed, by rw [(hl line hline).trimmed]; exact (hl line hline).content⟩
  have hmap : lines.map trim = lines :=
    (List.map_congr_left fun line hline => (hl line hline).trimmed).trans (List.map_id lines)
  rw [contentLines_written hh.noFeed hh.trimmed hh.content hall, hmap]

theorem isContent_cons {c : Char} (h : c ≠ '%') (t : Text) : isContent (c :: t) = true := by
  unfold isContent
  rw [stripPrefix?_cons_ne (Ne.symm h)]
  simp

/-- A line whose first field does not look like a comment is none. -/
theorem isContent_escapeFor_append {seps : List Char}
    (hs : ∀ c ∈ seps, escapeMeaning? c = some c) {t rest : Text} {c : Char} (hc : c ≠ '%')
    (h : ¬ ['%', '%'] <+: unifyBreaks t) : isContent (escapeFor seps t ++ c :: rest) = true := by
  have hne : escapeFor seps t ++ c :: rest ≠ [] :=
    List.append_ne_nil_of_right_ne_nil _ (List.cons_ne_nil _ _)
  have hnone : stripPrefix? ['%', '%'] (escapeFor seps t ++ c :: rest) = none := by
    refine Option.eq_none_iff_forall_not_mem.mpr fun u hu => h ?_
    obtain ⟨v, -, -, hv⟩ := eq_append_of_escapeFor hs not_escapable_percent
      (by simpa using hc) (eq_append_of_stripPrefix? hu)
    exact ⟨_, hv.symm⟩
  unfold isContent
  rw [hnone]
  simp [hne]

/-! ### Titles and sections -/

def titleWord : Text := "title".toList

def sectionWord : Text := "section".toList

section Keyword

variable {t : Text} (h : Tidy (unifyBreaks t))

include h

theorem afterKeyword?_title :
    afterKeyword? titleWord ("title ".toList ++ escape t) = some (escape t) :=
  afterKeyword?_field (p := titleWord) meaning_none (by decide) h

theorem afterKeyword?_section :
    afterKeyword? sectionWord ("section ".toList ++ escape t) = some (escape t) :=
  afterKeyword?_field (p := sectionWord) meaning_none (by decide) h

theorem written_section (hne : t ≠ []) : Written ("section ".toList ++ escape t) where
  noFeed := by
    have he : '\n' ∉ escape t := lineFeed_not_mem_escapeFor t
    simp [he]
  trimmed := trim_cons_append (b := 's') (by decide) "ection ".toList
    (fun he => hne (escapeFor_eq_nil.mp he)) (trim_escapeFor meaning_none h)
  content := isContent_cons (by decide) _

theorem written_titleLines : ∀ line ∈ titleLines t, Written line := by
  unfold titleLines
  split
  · exact fun line hline => absurd hline List.not_mem_nil
  · next hne =>
    refine List.forall_mem_singleton.mpr ⟨?_, ?_, isContent_cons (by decide) _⟩
    · have he : '\n' ∉ escape t := lineFeed_not_mem_escapeFor t
      simp [he]
    · exact trim_cons_append (b := 't') (by decide) "itle ".toList
        (fun he => hne (escapeFor_eq_nil.mp he)) (trim_escapeFor meaning_none h)

end Keyword

/-! ### Carriage returns -/

/-- Each carriage return stands directly before a line feed. -/
def ReturnsBreak : Text → Prop
  | [] => True
  | c :: rest => (c = '\r' → rest.head? = some '\n') ∧ ReturnsBreak rest

instance decidableReturnsBreak : (t : Text) → Decidable (ReturnsBreak t)
  | [] => isTrue trivial
  | c :: rest =>
    have := decidableReturnsBreak rest
    inferInstanceAs (Decidable ((c = '\r' → rest.head? = some '\n') ∧ ReturnsBreak rest))

/-- A line as the readers of charts get it. -/
structure Clean (line : Text) : Prop where
  trimmed : trim line = line
  noReturn : '\r' ∉ line
  noFeed : '\n' ∉ line
  content : isContent line = true

theorem Clean.head {line : Text} (h : Clean line) : ∀ c ∈ line.head?, isBlank c = false :=
  (trim_eq_self_iff.mp h.trimmed).1

theorem Clean.noComment {line : Text} (h : Clean line) : ¬ ['%', '%'] <+: line := by
  rintro ⟨t, rfl⟩
  have hc := h.content
  unfold isContent at hc
  rw [stripPrefix?_append] at hc
  simp at hc

theorem return_not_mem_dropLast {t : Text} (h : ReturnsBreak t) :
    ∀ piece ∈ splitOn '\n' t, '\r' ∉ piece.dropLast := by
  induction t with
  | nil => exact List.forall_mem_singleton.mpr List.not_mem_nil
  | cons c t ih =>
    obtain ⟨hc, ht⟩ := h
    have ih := ih ht
    rw [splitOn_cons]
    split
    · exact List.forall_mem_cons.mpr ⟨List.not_mem_nil, ih⟩
    · cases hs : splitOn '\n' t with
      | nil => exact absurd hs (splitOn_ne_nil _ _)
      | cons piece rest =>
        obtain ⟨hp, hrest⟩ := List.forall_mem_cons.mp (hs ▸ ih)
        refine List.forall_mem_cons.mpr ⟨?_, hrest⟩
        cases piece with
        | nil => exact List.not_mem_nil
        | cons d piece =>
          -- Before the end of its piece a character is followed by no line feed.
          have hne : '\r' ≠ c := by
            rintro rfl
            obtain ⟨u, rfl⟩ := List.head?_eq_some_iff.mp (hc rfl)
            rw [splitOn_cons, if_pos rfl] at hs
            cases hs
          exact List.not_mem_cons_of_ne_of_not_mem hne hp

theorem clean_contentLines {t : Text} (h : ReturnsBreak t) : ∀ line ∈ contentLines t, Clean line := by
  intro line hline
  rw [contentLines_eq] at hline
  obtain ⟨hmem, hcontent⟩ := List.mem_filter.mp hline
  obtain ⟨piece, hpiece, rfl⟩ := List.mem_map.mp hmem
  refine ⟨trim_trim piece, fun hr => ?_, fun hn => ?_, hcontent⟩
  · have hdrop := return_not_mem_dropLast h piece hpiece
    rcases List.eq_nil_or_concat piece with rfl | ⟨s, c, rfl⟩
    · cases hr
    · rw [List.concat_eq_append] at hr hdrop
      rw [List.dropLast_concat] at hdrop
      by_cases hc : c = '\r'
      · subst hc
        rw [trim_concat_blank (by decide)] at hr
        exact hdrop (mem_of_mem_trim hr)
      · rcases List.mem_append.mp (mem_of_mem_trim hr) with hm | hm
        · exact hdrop hm
        · exact hc (List.mem_singleton.mp hm).symm
  · exact not_mem_of_mem_splitOn '\n' t piece hpiece (mem_of_mem_trim hn)

end DiagramDoc.Dialect
