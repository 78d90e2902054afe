import DiagramDoc.Text.Basic

/-!
# Trimming and cutting

Blanks at the ends of a text do not matter once it is trimmed, and a text between two characters
that are no blanks is trimmed already. Pieces without a separator are found again after joining.
-/

namespace DiagramDoc.Text

/-! ### Blanks at the ends -/

theorem trimStart_cons_blank {c : Char} (h : isBlank c = true) (t : Text) :
    trimStart (c :: t) = trimStart t := List.dropWhile_cons_of_pos h

theorem trimStart_cons {c : Char} (h : isBlank c = false) (t : Text) :
    trimStart (c :: t) = c :: t := List.dropWhile_cons_of_neg (by simp [h])

theorem trimEnd_concat_blank {c : Char} (h : isBlank c = true) (t : Text) :
    trimEnd (t ++ [c]) = trimEnd t := by
  unfold trimEnd
  rw [List.reverse_concat, List.dropWhile_cons_of_pos h]

/-- Only what follows the last character that is no blank can be trimmed from the end. -/
theorem trimEnd_append_cons {c : Char} (h : isBlank c = false) (s t : Text) :
    trimEnd (s ++ c :: t) = s ++ c :: trimEnd t := by
  have hc : ¬ isBlank c = true := by simp [h]
  have hr : (s ++ c :: t).reverse = t.reverse ++ c :: s.reverse := by simp
  unfold trimEnd
  rw [hr, List.dropWhile_append]
  by_cases ht : (t.reverse.dropWhile isBlank).isEmpty = true
  · have hn : t.reverse.dropWhile isBlank = [] := List.isEmpty_iff.mp ht
    rw [if_pos ht, List.dropWhile_cons_of_neg hc, hn]
    simp
  · rw [if_neg ht]
    simp

theorem trimEnd_trimEnd (t : Text) : trimEnd (trimEnd t) = trimEnd t := by
  have hd : ∀ s : Text, (s.dropWhile isBlank).dropWhile isBlank = s.dropWhile isBlank := by
    intro s
    induction s with
    | nil => rfl
    | cons c s ih =>
      by_cases hc : isBlank c = true
      · rw [List.dropWhile_cons_of_pos hc, ih]
      · rw [List.dropWhile_cons_of_neg hc, List.dropWhile_cons_of_neg hc]
  unfold trimEnd
  rw [List.reverse_reverse, hd]

theorem trim_cons_blank {c : Char} (h : isBlank c = true) (t : Text) :
    trim (c :: t) = trim t := by
  unfold trim
  rw [trimStart_cons_blank h]

theorem trim_cons {c : Char} (h : isBlank c = false) (t : Text) :
    trim (c :: t) = c :: trimEnd t := by
  unfold trim
  rw [trimStart_cons h]
  exact trimEnd_append_cons h [] t

theorem trimStart_append_cons {c : Char} (h : isBlank c = false) (s t : Text) :
    trimStart (s ++ c :: t) = trimStart s ++ c :: t := by
  unfold trimStart
  rw [List.dropWhile_append]
  split
  · next hs =>
    rw [List.isEmpty_iff.mp hs, List.dropWhile_cons_of_neg (by simp [h])]
    rfl
  · rfl

theorem trim_append_cons {c : Char} (h : isBlank c = false) (s t : Text) :
    trim (s ++ c :: t) = trimStart s ++ c :: trimEnd t := by
  unfold trim
  rw [trimStart_append_cons h, trimEnd_append_cons h]

theorem trim_eq_nil {t : Text} : trim t = [] ↔ trimStart t = [] := by
  induction t with
  | nil => exact Iff.rfl
  | cons c t ih =>
    cases hc : isBlank c with
    | true => rw [trim_cons_blank hc, trimStart_cons_blank hc, ih]
    | false =>
      rw [trim_cons hc, trimStart_cons hc]
      exact iff_of_false (List.cons_ne_nil _ _) (List.cons_ne_nil _ _)

theorem trim_concat_blank {c : Char} (h : isBlank c = true) (t : Text) :
    trim (t ++ [c]) = trim t := by
  induction t with
  | nil => exact trim_cons_blank h []
  | cons b t ih =>
    rw [List.cons_append]
    by_cases hb : isBlank b = true
    · rw [trim_cons_blank hb, trim_cons_blank hb, ih]
    · have hb : isBlank b = false := by simpa using hb
      rw [trim_cons hb, trim_cons hb, trimEnd_concat_blank h]

theorem trim_trimEnd (t : Text) : trim (trimEnd t) = trim t := by
  obtain ⟨r, rfl⟩ : ∃ r : Text, t = r.reverse := ⟨t.reverse, t.reverse_reverse.symm⟩
  induction r with
  | nil => rfl
  | cons c r ih =>
    rw [List.reverse_cons]
    by_cases hc : isBlank c = true
    · rw [trimEnd_concat_blank hc, trim_concat_blank hc, ih]
    · have hc : isBlank c = false := by simpa using hc
      rw [trimEnd_append_cons hc]
      rfl

theorem trimEnd_of_forall {t : Text} (h : ∀ c ∈ t, isBlank c = false) : trimEnd t = t := by
  unfold trimEnd
  cases hr : t.reverse with
  | nil =>
    rw [List.reverse_eq_nil_iff.mp hr]
    rfl
  | cons c s =>
    have hc : c ∈ t := List.mem_reverse.mp (hr ▸ List.mem_cons_self)
    rw [List.dropWhile_cons_of_neg (by simp [h c hc]), ← hr, List.reverse_reverse]

theorem trim_of_forall {t : Text} (h : ∀ c ∈ t, isBlank c = false) : trim t = t := by
  cases t with
  | nil => rfl
  | cons c t =>
    obtain ⟨hc, ht⟩ := List.forall_mem_cons.mp h
    rw [trim_cons hc, trimEnd_of_forall ht]

theorem trim_eq_self {b c : Char} (hb : isBlank b = false) (hc : isBlank c = false) (t : Text) :
    trim (b :: (t ++ [c])) = b :: (t ++ [c]) := by
  rw [trim_cons hb, trimEnd_append_cons hc]
  rfl

theorem trimStart_suffix (t : Text) : trimStart t <:+ t := List.dropWhile_suffix _

theorem trimEnd_isPrefixOf (t : Text) : trimEnd t <+: t := by
  have h := List.dropWhile_suffix isBlank (l := t.reverse)
  unfold trimEnd
  rw [← List.reverse_suffix, List.reverse_reverse]
  exact h

theorem trim_sublist (t : Text) : (trim t).Sublist t :=
  (trimEnd_isPrefixOf (trimStart t)).sublist.trans (trimStart_suffix t).sublist

theorem mem_of_mem_trim {c : Char} {t : Text} (h : c ∈ trim t) : c ∈ t := (trim_sublist t).subset h

/-- A text is trimmed when it neither begins nor ends with a blank. -/
theorem trim_eq_self_iff {t : Text} :
    trim t = t ↔ (∀ c ∈ t.head?, isBlank c = false) ∧ ∀ c ∈ t.getLast?, isBlank c = false := by
  constructor
  · intro h
    refine ⟨fun c hc => ?_, fun c hc => ?_⟩
    · obtain ⟨s, rfl⟩ := List.head?_eq_some_iff.mp hc
      refine eq_false_of_ne_true fun hb => ?_
      have hle := (trim_sublist s).length_le
      rw [← trim_cons_blank hb, h, List.length_cons] at hle
      omega
    · obtain ⟨s, rfl⟩ := List.getLast?_eq_some_iff.mp hc
      refine eq_false_of_ne_true fun hb => ?_
      have hle := (trim_sublist s).length_le
      rw [← trim_concat_blank hb, h, List.length_append, List.length_singleton] at hle
      omega
  · rintro ⟨hhead, hlast⟩
    cases t with
    | nil => rfl
    | cons c t =>
      have hc := hhead c rfl
      rcases List.eq_nil_or_concat t with rfl | ⟨s, d, rfl⟩
      · rw [trim_cons hc]
        rfl
      · have hd : (c :: (s ++ [d])).getLast? = some d :=
          List.getLast?_concat (l := c :: s)
        rw [List.concat_eq_append] at hlast ⊢
        exact trim_eq_self hc (hlast d hd) s

/-- A trimmed text that is not empty ends a line that begins with no blank. -/
theorem trim_cons_append {b : Char} (hb : isBlank b = false) (s : Text) {t : Text} (hne : t ≠ [])
    (ht : trim t = t) : trim (b :: (s ++ t)) = b :: (s ++ t) := by
  rcases List.eq_nil_or_concat t with rfl | ⟨u, c, rfl⟩
  · exact absurd rfl hne
  · rw [List.concat_eq_append] at ht ⊢
    have hc : isBlank c = false := (trim_eq_self_iff.mp ht).2 c List.getLast?_concat
    rw [← List.append_assoc]
    exact trim_eq_self hb hc (s ++ u)

theorem trimEnd_eq_self {t : Text} (h : ∀ c ∈ t.getLast?, isBlank c = false) : trimEnd t = t := by
  rcases List.eq_nil_or_concat t with rfl | ⟨s, c, rfl⟩
  · rfl
  · rw [List.concat_eq_append] at h ⊢
    have hc : isBlank c = false := h c List.getLast?_concat
    have he : trimEnd (s ++ [c]) = s ++ c :: trimEnd [] := trimEnd_append_cons hc s []
    exact he

theorem trim_trim (t : Text) : trim (trim t) = trim t := by
  induction t with
  | nil => rfl
  | cons c t ih =>
    by_cases hc : isBlank c = true
    · rw [trim_cons_blank hc, ih]
    · have hc : isBlank c = false := eq_false_of_ne_true hc
      rw [trim_cons hc, trim_cons hc, trimEnd_trimEnd]

theorem trim_dropReturn (t : Text) : trim (dropReturn t) = trim t := by
  unfold dropReturn
  split
  · next h =>
    have hr : isBlank '\r' = true := by decide
    obtain ⟨s, hs⟩ := List.getLast?_eq_some_iff.mp h
    rw [hs, List.dropLast_concat, trim_concat_blank hr]
  · rfl

/-! ### Gaps -/

/-- Blanks, as many as there may be. -/
def Gap (t : Text) : Prop := ∀ c ∈ t, isBlank c = true

instance (t : Text) : Decidable (Gap t) := List.decidableBAll (fun c => isBlank c = true) t

theorem trimStart_gap {gap : Text} (h : Gap gap) (t : Text) : trimStart (gap ++ t) = trimStart t :=
  List.dropWhile_append_of_pos h

theorem exists_gap (t : Text) : ∃ gap, Gap gap ∧ t = gap ++ trimStart t :=
  ⟨t.takeWhile isBlank, fun _ hc => List.all_eq_true.mp List.all_takeWhile _ hc,
    List.takeWhile_append_dropWhile.symm⟩

theorem exists_trimEnd_gap (t : Text) : ∃ gap, Gap gap ∧ t = trimEnd t ++ gap := by
  refine ⟨(t.reverse.takeWhile isBlank).reverse, fun c hc => ?_, ?_⟩
  · exact List.all_eq_true.mp List.all_takeWhile c (List.mem_reverse.mp hc)
  · unfold trimEnd
    rw [← List.reverse_append, List.takeWhile_append_dropWhile, List.reverse_reverse]

theorem trimEnd_append_gap {gap : Text} (h : Gap gap) (t : Text) :
    trimEnd (t ++ gap) = trimEnd t := by
  induction gap generalizing t with
  | nil => rw [List.append_nil]
  | cons c gap ih =>
    obtain ⟨hc, hgap⟩ := List.forall_mem_cons.mp h
    rw [List.append_cons, ih hgap, trimEnd_concat_blank hc]

theorem trim_append_gap {gap : Text} (h : Gap gap) (t : Text) : trim (t ++ gap) = trim t := by
  induction gap generalizing t with
  | nil => rw [List.append_nil]
  | cons c gap ih =>
    obtain ⟨hc, hgap⟩ := List.forall_mem_cons.mp h
    rw [List.append_cons, ih hgap, trim_concat_blank hc]

theorem trim_gaps {before after : Text} (hb : Gap before) (ha : Gap after) (t : Text) :
    trim (before ++ t ++ after) = trim t := by
  rw [trim_append_gap ha]
  unfold trim
  rw [trimStart_gap hb]

theorem not_mem_of_gap {gap : Text} (h : Gap gap) {c : Char} (hc : isBlank c = false) :
    c ∉ gap := by
  intro hm
  rw [h c hm] at hc
  cases hc

theorem trimEnd_eq_iff {s t : Text} (hs : ∀ c ∈ s, isBlank c = false) :
    trimEnd t = s ↔ ∃ gap, Gap gap ∧ t = s ++ gap := by
  constructor
  · rintro rfl
    exact exists_trimEnd_gap t
  · rintro ⟨gap, hgap, rfl⟩
    rw [trimEnd_append_gap hgap, trimEnd_of_forall hs]

theorem exists_trim_gaps (t : Text) :
    ∃ before after, Gap before ∧ Gap after ∧ t = before ++ trim t ++ after := by
  obtain ⟨before, hbefore, hstart⟩ := exists_gap t
  obtain ⟨after, hafter, hend⟩ := exists_trimEnd_gap (trimStart t)
  refine ⟨before, after, hbefore, hafter, ?_⟩
  unfold trim
  rw [List.append_assoc, ← hend, ← hstart]

theorem gap_ne_nil {gap word rest : Text} (hne : word ≠ [])
    (hword : ∀ c ∈ word.head?, isBlank c = false)
    (h : ∀ c ∈ (gap ++ (word ++ rest)).head?, isBlank c = true) : gap ≠ [] := by
  rintro rfl
  obtain ⟨c, word, rfl⟩ := List.exists_cons_of_ne_nil hne
  cases (hword c rfl).symm.trans (h c rfl)

theorem head?_gap_append {gap : Text} (h : Gap gap) (hne : gap ≠ []) (t : Text) :
    ∀ c ∈ (gap ++ t).head?, isBlank c = true := by
  obtain ⟨b, gap, rfl⟩ := List.exists_cons_of_ne_nil hne
  rintro c ⟨⟩
  exact h b List.mem_cons_self

/-! ### Cutting -/

theorem span_append {p : Char → Bool} {s rest : Text} (hs : ∀ c ∈ s, p c = true)
    (hr : ∀ c ∈ rest.head?, p c = false) :
    (s ++ rest).takeWhile p = s ∧ (s ++ rest).dropWhile p = rest := by
  rw [List.takeWhile_append_of_pos hs, List.dropWhile_append_of_pos hs]
  cases rest with
  | nil => exact ⟨List.append_nil s, rfl⟩
  | cons c rest =>
    have hc : ¬ p c = true := by simp [hr c rfl]
    rw [List.takeWhile_cons_of_neg hc, List.dropWhile_cons_of_neg hc, List.append_nil]
    exact ⟨rfl, rfl⟩

theorem splitOn_append_sep (sep : Char) (s t : Text) :
    splitOn sep (s ++ sep :: t) = splitOn sep s ++ splitOn sep t := by
  induction s with
  | nil => exact if_pos rfl
  | cons c s ih =>
    rw [List.cons_append, splitOn_cons, splitOn_cons, ih]
    split
    · rfl
    · cases hs : splitOn sep s with
      | nil => exact absurd hs (splitOn_ne_nil sep s)
      | cons piece pieces => rfl

theorem splitOn_of_not_mem {sep : Char} {s : Text} (h : sep ∉ s) : splitOn sep s = [s] := by
  induction s with
  | nil => rfl
  | cons c s ih =>
    have hc := List.ne_of_not_mem_cons h
    have hs := List.not_mem_of_not_mem_cons h
    rw [splitOn_cons, if_neg (Ne.symm hc), ih hs]
    rfl

theorem splitOn_append_cons {sep : Char} {s : Text} (h : sep ∉ s) (t : Text) :
    splitOn sep (s ++ sep :: t) = s :: splitOn sep t := by
  rw [splitOn_append_sep, splitOn_of_not_mem h, List.singleton_append]

theorem not_mem_of_mem_splitOn (sep : Char) (t : Text) : ∀ piece ∈ splitOn sep t, sep ∉ piece := by
  induction t with
  | nil => exact List.forall_mem_singleton.mpr List.not_mem_nil
  | cons c t ih =>
    rw [splitOn_cons]
    split
    · exact List.forall_mem_cons.mpr ⟨List.not_mem_nil, ih⟩
    · next hc =>
      cases hs : splitOn sep t with
      | nil => exact absurd hs (splitOn_ne_nil _ _)
      | cons piece rest =>
        obtain ⟨hp, hrest⟩ := List.forall_mem_cons.mp (hs ▸ ih)
        exact List.forall_mem_cons.mpr
          ⟨List.not_mem_cons_of_ne_of_not_mem (Ne.symm hc) hp, hrest⟩

/-- The pieces hold all characters but the separators, and there is one piece more than these. -/
theorem length_flatten_splitOn (sep : Char) (t : Text) :
    (splitOn sep t).flatten.length + (splitOn sep t).length = t.length + 1 := by
  induction t with
  | nil => rfl
  | cons c t ih =>
    rw [splitOn_cons, List.length_cons]
    split
    · rw [List.flatten_cons, List.nil_append, List.length_cons]
      omega
    · cases hs : splitOn sep t with
      | nil => exact absurd hs (splitOn_ne_nil sep t)
      | cons piece pieces =>
        rw [hs] at ih
        simp only [consHead, List.flatten_cons, List.length_append, List.length_cons] at ih ⊢
        omega

theorem forall_mem_consHead {c : Char} {t : Text} {pieces : List Text}
    (h : ∀ piece ∈ pieces, ∀ d ∈ piece, d ∈ t) :
    ∀ piece ∈ consHead c pieces, ∀ d ∈ piece, d ∈ c :: t := by
  have hmono : ∀ piece : Text, (∀ d ∈ piece, d ∈ t) → ∀ d ∈ piece, d ∈ c :: t :=
    fun piece hp d hd => List.mem_cons_of_mem _ (hp d hd)
  cases pieces with
  | nil =>
    refine List.forall_mem_singleton.mpr fun d hd => ?_
    exact List.mem_singleton.mp hd ▸ List.mem_cons_self
  | cons piece rest =>
    obtain ⟨hp, hrest⟩ := List.forall_mem_cons.mp h
    refine List.forall_mem_cons.mpr ⟨?_, fun p hm => hmono p (hrest p hm)⟩
    exact List.forall_mem_cons.mpr ⟨List.mem_cons_self, hmono piece hp⟩

theorem mem_of_mem_splitOn (sep : Char) (t : Text) :
    ∀ piece ∈ splitOn sep t, ∀ c ∈ piece, c ∈ t := by
  induction t with
  | nil => exact List.forall_mem_singleton.mpr fun c hc => hc
  | cons d t ih =>
    rw [splitOn_cons]
    split
    · refine List.forall_mem_cons.mpr ⟨fun c hc => absurd hc List.not_mem_nil, fun p hp c hc => ?_⟩
      exact List.mem_cons_of_mem _ (ih p hp c hc)
    · exact forall_mem_consHead ih

theorem join_singleton (sep piece : Text) : join sep [piece] = piece := List.intercalate_singleton

theorem join_cons_cons (sep piece next : Text) (pieces : List Text) :
    join sep (piece :: next :: pieces) = piece ++ (sep ++ join sep (next :: pieces)) := by
  unfold join
  rw [List.intercalate_cons_cons, List.append_assoc]

/-- The first piece is found whatever the others hold. -/
theorem splitOn_join_cons {sep : Char} {piece : Text} (h : sep ∉ piece) (pieces : List Text) :
    ∃ rest, splitOn sep (join [sep] (piece :: pieces)) = piece :: rest := by
  cases pieces with
  | nil => exact ⟨[], by rw [join_singleton, splitOn_of_not_mem h]⟩
  | cons next pieces =>
    rw [join_cons_cons, List.singleton_append, splitOn_append_cons h]
    exact ⟨_, rfl⟩

theorem splitOn_join {sep : Char} {piece : Text} {pieces : List Text}
    (h : ∀ p ∈ piece :: pieces, sep ∉ p) :
    splitOn sep (join [sep] (piece :: pieces)) = piece :: pieces := by
  induction pieces generalizing piece with
  | nil => rw [join_singleton, splitOn_of_not_mem (h piece List.mem_cons_self)]
  | cons next pieces ih =>
    obtain ⟨hp, hrest⟩ := List.forall_mem_cons.mp h
    rw [join_cons_cons, List.singleton_append, splitOn_append_cons hp, ih hrest]

theorem stripPrefix?_append (s t : Text) : stripPrefix? s (s ++ t) = some t := by
  induction s with
  | nil => rfl
  | cons c s ih =>
    show (if c == c then stripPrefix? s (s ++ t) else none) = some t
    rw [if_pos (BEq.rfl), ih]

theorem stripPrefix?_cons_ne {b c : Char} (h : b ≠ c) (s t : Text) :
    stripPrefix? (b :: s) (c :: t) = none := by
  show (if b == c then stripPrefix? s t else none) = none
  exact if_neg (by simpa using h)

theorem eq_append_of_stripPrefix? {s t u : Text} (h : stripPrefix? s t = some u) : t = s ++ u := by
  induction s generalizing t with
  | nil => exact Option.some.inj h
  | cons b s ih =>
    cases t with
    | nil => cases h
    | cons c t =>
      have hc : (if b == c then stripPrefix? s t else none) = some u := h
      split at hc
      · next hb => rw [ih hc, beq_iff_eq.mp hb, List.cons_append]
      · cases hc

theorem stripSuffix?_append (s t : Text) : stripSuffix? t (s ++ t) = some s := by
  have hp := stripPrefix?_append t.reverse s.reverse
  unfold stripPrefix? at hp
  unfold stripSuffix? List.isSuffixOf?
  rw [List.reverse_append, hp, Option.map_some, List.reverse_reverse]

theorem eq_append_of_stripSuffix? {s t u : Text} (h : stripSuffix? s t = some u) : t = u ++ s := by
  unfold stripSuffix? List.isSuffixOf? at h
  obtain ⟨v, hv, rfl⟩ := Option.map_eq_some_iff.mp h
  have he := eq_append_of_stripPrefix? (s := s.reverse) (t := t.reverse) hv
  rw [← List.reverse_reverse t, he, List.reverse_append, List.reverse_reverse]

theorem stripPrefix?_eq_some_iff {s t u : Text} : stripPrefix? s t = some u ↔ t = s ++ u := by
  refine ⟨eq_append_of_stripPrefix?, ?_⟩
  rintro rfl
  exact stripPrefix?_append s u

theorem stripSuffix?_eq_some_iff {s t u : Text} : stripSuffix? s t = some u ↔ t = u ++ s := by
  refine ⟨eq_append_of_stripSuffix?, ?_⟩
  rintro rfl
  exact stripSuffix?_append u s

theorem eq_append_of_cutAt? {word t before after : Text}
    (h : cutAt? word t = some (before, after)) : t = before ++ (word ++ after) := by
  induction t generalizing before with
  | nil =>
    rw [cutAt?] at h
    split at h
    · next hw =>
      cases h
      rw [hw]
      rfl
    · cases h
  | cons c t ih =>
    rw [cutAt?] at h
    split at h
    · next rest hs =>
      cases h
      exact eq_append_of_stripPrefix? (s := word) hs
    · obtain ⟨⟨b, a⟩, hcut, hp⟩ := Option.map_eq_some_iff.mp h
      cases hp
      rw [ih hcut]
      rfl

theorem append_dropLast_isPrefixOf (before word after : Text) :
    before ++ word.dropLast <+: before ++ (word ++ after) :=
  (List.prefix_append_right_inj before).mpr
    ((List.dropLast_prefix word).trans (List.prefix_append word after))

/-- A word that begins before another place of this word ends before that place ends. -/
theorem prefix_append_dropLast {word before after : Text} (hne : before ≠ [])
    (h : word <+: before ++ (word ++ after)) : word <+: before ++ word.dropLast := by
  refine List.prefix_of_prefix_length_le h (append_dropLast_isPrefixOf before word after) ?_
  have hpos := List.length_pos_iff.mpr hne
  rw [List.length_append, List.length_dropLast]
  omega

theorem not_infix_of_cutAt? {word t before after : Text} (hw : word ≠ [])
    (h : cutAt? word t = some (before, after)) : ¬ word <:+: before ++ word.dropLast := by
  induction t generalizing before with
  | nil =>
    rw [cutAt?, if_neg hw] at h
    cases h
  | cons c t ih =>
    rw [cutAt?] at h
    split at h
    · cases h
      intro hin
      have hlength := hin.length_le
      have hpos := List.length_pos_iff.mpr hw
      rw [List.nil_append, List.length_dropLast] at hlength
      omega
    · next hs =>
      obtain ⟨⟨b, a⟩, hcut, hp⟩ := Option.map_eq_some_iff.mp h
      cases hp
      intro hin
      rcases List.infix_cons_iff.mp hin with hstart | hin
      · have ht := eq_append_of_cutAt? hcut
        have hline : word <+: c :: t := by
          rw [ht]
          exact hstart.trans (append_dropLast_isPrefixOf (c :: b) word after)
        obtain ⟨rest, hrest⟩ := hline
        rw [stripPrefix?_eq_some_iff.mpr hrest.symm] at hs
        cases hs
      · exact ih hcut hin

theorem cutAt?_append_word {word before : Text} (hw : word ≠ [])
    (h : ¬ word <:+: before ++ word.dropLast) (after : Text) :
    cutAt? word (before ++ (word ++ after)) = some (before, after) := by
  induction before with
  | nil =>
    obtain ⟨b, word, rfl⟩ := List.exists_cons_of_ne_nil hw
    rw [List.nil_append, List.cons_append, cutAt?, ← List.cons_append, stripPrefix?_append]
  | cons c before ih =>
    have hnone : stripPrefix? word (c :: (before ++ (word ++ after))) = none := by
      refine Option.eq_none_iff_forall_not_mem.mpr fun rest hs => h ?_
      have hstart : word <+: c :: before ++ (word ++ after) :=
        ⟨rest, (stripPrefix?_eq_some_iff.mp hs).symm⟩
      exact (prefix_append_dropLast (List.cons_ne_nil c before) hstart).isInfix
    rw [List.cons_append, cutAt?, hnone, ih fun hin => h (List.infix_cons hin)]
    rfl

/-- A text is cut at the first place of a word: none begins before it. -/
theorem cutAt?_eq_some_iff {word t before after : Text} (hw : word ≠ []) :
    cutAt? word t = some (before, after) ↔
      t = before ++ (word ++ after) ∧ ¬ word <:+: before ++ word.dropLast := by
  constructor
  · exact fun h => ⟨eq_append_of_cutAt? h, not_infix_of_cutAt? hw h⟩
  · rintro ⟨rfl, h⟩
    exact cutAt?_append_word hw h after
theorem cutLast?_eq_none {sep : Char} {t : Text} (h : sep ∉ t) : cutLast? sep t = none := by
  induction t with
  | nil => rfl
  | cons c t ih =>
    have hc := List.ne_of_not_mem_cons h
    rw [cutLast?, ih (List.not_mem_of_not_mem_cons h)]
    exact if_neg hc.symm

theorem cutLast?_append_cons {sep : Char} {t : Text} (h : sep ∉ t) (s : Text) :
    cutLast? sep (s ++ sep :: t) = some (s, t) := by
  induction s with
  | nil =>
    rw [List.nil_append, cutLast?, cutLast?_eq_none h]
    exact if_pos rfl
  | cons c s ih => rw [List.cons_append, cutLast?, ih]

theorem eq_append_of_cutLast? {sep : Char} {t before after : Text}
    (h : cutLast? sep t = some (before, after)) : t = before ++ sep :: after := by
  induction t generalizing before with
  | nil => cases h
  | cons c t ih =>
    rw [cutLast?] at h
    split at h
    · next b a hcut =>
      cases h
      rw [ih hcut]
      rfl
    · split at h
      · next hc =>
        cases h
        rw [hc]
        rfl
      · cases h

end DiagramDoc.Text
