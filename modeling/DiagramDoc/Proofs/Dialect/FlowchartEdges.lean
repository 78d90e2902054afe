import DiagramDoc.Dialect.Flowchart
import DiagramDoc.Proofs.Text.Field
import DiagramDoc.Proofs.Text.Unescaped

/-!
# The lines of edges

The line of an edge is two names with an arrow between them, and perhaps a label between bars before
the second name. Names may hold dashes, dots and angle brackets like the arrows do, but no arrow begins
in a name behind its first character. Every line that is read as an edge is put together from the parts
that are read, and a line that is put together so, with a blank behind the first name, is read as these
parts.
-/

namespace DiagramDoc.Dialect.Flow

open Text

/-- A text that can name a node in a line. -/
structure IsName (t : Text) : Prop where
  ne_nil : t ≠ []
  noBlank : ∀ c ∈ t, isBlank c = false
  noMark : ∀ c ∈ t, c ∉ ['[', ']', '\x7b', '\x7d', '(', ')', '"', '|']
  noArrow : ∀ arrow, ¬ arrowSign arrow <:+: t.tail

/-- What stands before the target of an edge: nothing, or a label up to the first bar that is not
escaped, and blanks behind that. -/
inductive LabelPart : Option Text → Text → Prop where
  | none : LabelPart none []
  | some {label gap : Text} (hbars : OnlyEscaped '|' label) (hend : ¬ EndsEscaping label)
      (hgap : Gap gap) : LabelPart (some label) ('|' :: (label ++ '|' :: gap))

/-- A line that is put together from the parts of an edge, with a gap behind the source. -/
structure EdgeText (line source gap : Text) (arrow : Arrow) (label : Option Text) (target : Text) :
    Prop where
  isName_source : IsName source
  isGap : Gap gap
  isName_target : IsName target
  spelled : ∃ gap' part, Gap gap' ∧ LabelPart label part ∧
    line = source ++ gap ++ arrowSign arrow ++ gap' ++ part ++ target

/-! ### Arrows -/

theorem readArrow?_arrowSign (arrow : Arrow) (t : Text) :
    readArrow? (arrowSign arrow ++ t) = some (arrow, t) := by
  cases arrow <;> rfl

theorem readArrow?_eq_some_iff {t rest : Text} {arrow : Arrow} :
    readArrow? t = some (arrow, rest) ↔ t = arrowSign arrow ++ rest := by
  constructor
  · intro h
    obtain ⟨a, -, ha⟩ := List.exists_of_findSome?_eq_some h
    obtain ⟨r, hr, he⟩ := Option.map_eq_some_iff.mp ha
    cases he
    exact eq_append_of_stripPrefix? hr
  · rintro rfl
    exact readArrow?_arrowSign arrow rest

theorem readArrow?_eq_none_iff {t : Text} :
    readArrow? t = none ↔ ∀ arrow, ¬ arrowSign arrow <+: t := by
  rw [Option.eq_none_iff_forall_not_mem]
  constructor
  · rintro h arrow ⟨rest, ht⟩
    exact h (arrow, rest) (readArrow?_eq_some_iff.mpr ht.symm)
  · rintro h ⟨arrow, rest⟩ hm
    exact h arrow ⟨rest, (readArrow?_eq_some_iff.mp hm).symm⟩

theorem exists_arrowSign_cons (arrow : Arrow) :
    ∃ c t, arrowSign arrow = c :: t ∧ isBlank c = false := by
  cases arrow <;> exact ⟨_, _, rfl, by decide⟩

theorem isNameChar_arrowSign (arrow : Arrow) : ∀ c ∈ arrowSign arrow, isNameChar c = true :=
  List.all_eq_true.mp (by cases arrow <;> decide)

/-! ### Names -/

theorem isNameChar_iff {c : Char} :
    isNameChar c = true ↔
      isBlank c = false ∧ c ∉ ['[', ']', '\x7b', '\x7d', '(', ')', '"', '|'] := by
  unfold isNameChar
  rw [Bool.and_eq_true, Bool.not_eq_true', decide_eq_true_eq]

theorem IsName.of_isNameChar {t : Text} (hne : t ≠ []) (hchars : ∀ c ∈ t, isNameChar c = true)
    (harrow : ∀ arrow, ¬ arrowSign arrow <:+: t.tail) : IsName t :=
  ⟨hne, fun c hc => (isNameChar_iff.mp (hchars c hc)).1,
    fun c hc => (isNameChar_iff.mp (hchars c hc)).2, harrow⟩

theorem IsName.isNameChar {t : Text} (h : IsName t) : ∀ c ∈ t, Flow.isNameChar c = true :=
  fun c hc => isNameChar_iff.mpr ⟨h.noBlank c hc, h.noMark c hc⟩

theorem readNameOn_stop {c : Char} (h : isNameChar c = false) (t : Text) :
    readNameOn (c :: t) = ([], c :: t) := by
  rw [readNameOn, h]
  rfl

theorem readNameOn_append (t : Text) : (readNameOn t).1 ++ (readNameOn t).2 = t := by
  induction t with
  | nil => rfl
  | cons c t ih =>
    rw [readNameOn]
    split
    · rw [List.cons_append, ih]
    · rfl

theorem readName_append (t : Text) : (readName t).1 ++ (readName t).2 = t := by
  cases t with
  | nil => rfl
  | cons c t =>
    rw [readName]
    split
    · rw [List.cons_append, readNameOn_append]
    · rfl

theorem readNameOn_spec (t : Text) :
    (∀ c ∈ (readNameOn t).1, isNameChar c = true) ∧
      ∀ arrow, ¬ arrowSign arrow <:+: (readNameOn t).1 := by
  have hnil : ∀ arrow, ¬ arrowSign arrow <:+: [] := by
    intro arrow
    cases arrow <;> decide
  induction t with
  | nil => exact ⟨fun c hc => absurd hc List.not_mem_nil, hnil⟩
  | cons c t ih =>
    rw [readNameOn]
    split
    · next h =>
      rw [Bool.and_eq_true, Option.isNone_iff_eq_none, readArrow?_eq_none_iff] at h
      refine ⟨List.forall_mem_cons.mpr ⟨h.1, ih.1⟩, fun arrow hinfix => ?_⟩
      -- An arrow at the start of what was read is one at the start of the text.
      rcases List.infix_cons_iff.mp hinfix with hstart | hinfix
      · have hread : c :: (readNameOn t).1 <+: c :: t :=
          (List.cons_prefix_cons.mpr ⟨rfl, ⟨_, readNameOn_append t⟩⟩)
        exact h.2 arrow (hstart.trans hread)
      · exact ih.2 arrow hinfix
    · exact ⟨fun c hc => absurd hc List.not_mem_nil, hnil⟩

theorem isName_readName {t : Text} (h : (readName t).1 ≠ []) : IsName (readName t).1 := by
  cases t with
  | nil => exact absurd rfl h
  | cons c t =>
    rw [readName] at h ⊢
    split at h
    · next hc =>
      obtain ⟨hchars, harrow⟩ := readNameOn_spec t
      rw [if_pos hc]
      exact .of_isNameChar (List.cons_ne_nil _ _) (List.forall_mem_cons.mpr ⟨hc, hchars⟩) harrow
    · exact absurd rfl h

/-- An arrow holds no character that ends a name, so it does not reach beyond the end of a name. -/
theorem arrowSign_prefix_left {arrow : Arrow} {s rest : Text}
    (hr : ∀ c ∈ rest.head?, isNameChar c = false) (h : arrowSign arrow <+: s ++ rest) :
    arrowSign arrow <+: s := by
  rcases List.prefix_or_prefix_of_prefix h (List.prefix_append s rest) with hp | ⟨u, hu⟩
  · exact hp
  · cases u with
    | nil =>
      rw [List.append_nil] at hu
      exact hu ▸ List.prefix_rfl
    | cons c u =>
      rw [← hu, List.prefix_append_right_inj] at h
      obtain ⟨v, rfl⟩ := h
      have hc := isNameChar_arrowSign arrow c (by rw [← hu]; simp)
      rw [hr c rfl] at hc
      cases hc

theorem readNameOn_append_stop {s rest : Text} (hs : ∀ c ∈ s, isNameChar c = true)
    (ha : ∀ arrow, ¬ arrowSign arrow <:+: s) (hr : ∀ c ∈ rest.head?, isNameChar c = false) :
    readNameOn (s ++ rest) = (s, rest) := by
  induction s with
  | nil =>
    cases rest with
    | nil => rfl
    | cons c rest => exact readNameOn_stop (hr c rfl) rest
  | cons c s ih =>
    obtain ⟨hc, hs⟩ := List.forall_mem_cons.mp hs
    have hnone : readArrow? (c :: (s ++ rest)) = none :=
      readArrow?_eq_none_iff.mpr fun arrow hp => ha arrow (arrowSign_prefix_left (s := c :: s) hr hp).isInfix
    have ih := ih hs fun arrow hi => ha arrow (List.infix_cons hi)
    rw [List.cons_append, readNameOn, hc, hnone, ih]
    rfl

/-- A name is read up to where something stands that no name holds. -/
theorem IsName.readName_append {name rest : Text} (h : IsName name)
    (hr : ∀ c ∈ rest.head?, Flow.isNameChar c = false) :
    readName (name ++ rest) = (name, rest) := by
  obtain ⟨c, s, rfl⟩ := List.exists_cons_of_ne_nil h.ne_nil
  obtain ⟨hc, hs⟩ := List.forall_mem_cons.mp h.isNameChar
  rw [List.cons_append, readName, if_pos hc, readNameOn_append_stop hs h.noArrow hr]

theorem IsName.trimStart_eq {name : Text} (h : IsName name) : trimStart name = name := by
  obtain ⟨c, s, rfl⟩ := List.exists_cons_of_ne_nil h.ne_nil
  exact trimStart_cons (h.noBlank c List.mem_cons_self) s

/-! ### Behind the arrow -/

theorem finish_eq_some_iff {source rest : Text} {arrow : Arrow} {label : Option Text} {l : Line} :
    readEdge?.finish source arrow label rest = some l ↔
      IsName rest ∧ l = .edge source arrow label rest := by
  have happ := readName_append rest
  unfold readEdge?.finish
  dsimp only
  constructor
  · intro h
    split at h
    · next hread =>
      cases h
      rw [hread.2, List.append_nil] at happ
      have hname := isName_readName hread.1
      rw [happ] at hname ⊢
      exact ⟨hname, rfl⟩
    · cases h
  · rintro ⟨hname, rfl⟩
    have hread : readName (rest ++ []) = (rest, []) :=
      hname.readName_append fun c hc => nomatch hc
    rw [List.append_nil] at hread
    rw [hread]
    exact if_pos ⟨hname.ne_nil, rfl⟩

theorem readEdge?_eq_some_iff {source t : Text} {arrow : Arrow} {l : Line} :
    readEdge? source arrow t = some l ↔
      ∃ label part target, LabelPart label part ∧ IsName target ∧ t = part ++ target ∧
        l = .edge source arrow label target := by
  have hbar : ('|' : Char) ≠ '\\' := by decide
  constructor
  · intro h
    unfold readEdge? at h
    split at h
    · next labelled =>
      split at h
      · cases h
      · next label rest hcut =>
        obtain ⟨rfl, hbars, hend⟩ := (cutUnescaped?_eq_some_iff hbar).mp hcut
        obtain ⟨gap, hgap, hrest⟩ := exists_gap rest
        obtain ⟨hname, rfl⟩ := finish_eq_some_iff.mp h
        refine ⟨_, _, _, .some hbars hend hgap, hname, ?_, rfl⟩
        rw [List.cons_append, List.append_assoc, List.cons_append, ← hrest]
    · obtain ⟨hname, rfl⟩ := finish_eq_some_iff.mp h
      exact ⟨_, _, _, .none, hname, rfl, rfl⟩
  · rintro ⟨label, part, target, hpart, hname, rfl, rfl⟩
    cases hpart with
    | none =>
      have hread : readEdge? source arrow target =
          readEdge?.finish source arrow Option.none target := by
        unfold readEdge?
        split
        · exact absurd (by decide) (hname.noMark '|' List.mem_cons_self)
        · rfl
      exact hread.trans (finish_eq_some_iff.mpr ⟨hname, rfl⟩)
    | @some label gap hbars hend hgap =>
      have hcut := cutUnescaped?_append_cons hbar hbars hend (gap ++ target)
      rw [List.cons_append, List.append_assoc, List.cons_append, readEdge?, hcut]
      dsimp only
      rw [trimStart_gap hgap, hname.trimStart_eq]
      exact finish_eq_some_iff.mpr ⟨hname, rfl⟩

/-! ### Whole lines -/

theorem edgeText_of_readLine? {line source target : Text} {arrow : Arrow} {label : Option Text}
    (h : readLine? line = some (.edge source arrow label target)) :
    ∃ gap, EdgeText line source gap arrow label target := by
  have happ := readName_append line
  obtain ⟨gap, hgap, hrest⟩ := exists_gap (readName line).2
  unfold readLine? at h
  split at h
  · dsimp only at h
    split at h <;> cases h
  · dsimp only at h
    split at h
    · cases h
    · next hne =>
      split at h
      · next arrow' after harrow =>
        obtain ⟨gap', hgap', hafter⟩ := exists_gap after
        obtain ⟨label', part, target', hpart, htarget, hedge, he⟩ := readEdge?_eq_some_iff.mp h
        cases he
        refine ⟨gap, isName_readName hne, hgap, htarget, gap', part, hgap', hpart, ?_⟩
        rw [List.append_assoc, ← hedge, List.append_assoc, ← hafter, List.append_assoc,
          ← readArrow?_eq_some_iff.mp harrow, List.append_assoc, ← hrest, happ]
      · obtain ⟨_, -, he⟩ := Option.map_eq_some_iff.mp h
        cases he

theorem readLine?_of_edgeText {line source gap target : Text} {arrow : Arrow} {label : Option Text}
    (h : EdgeText line source gap arrow label target) (hgap : gap ≠ [])
    (hstyle : sameIgnoringCase source "style".toList = false) :
    readLine? line = some (.edge source arrow label target) := by
  obtain ⟨gap', part, hgap', hpart, rfl⟩ := h.spelled
  obtain ⟨b, gap, rfl⟩ := List.exists_cons_of_ne_nil hgap
  have hb : isBlank b = true := h.isGap b List.mem_cons_self
  -- The blank behind the source ends its name, and with it what could be a keyword.
  have hkey : afterKeyword? "style".toList (source ++ (b :: gap ++ (arrowSign arrow ++
      (gap' ++ (part ++ target))))) = none :=
    afterKeyword?_eq_none (by decide) h.isName_source.noBlank (by rintro c ⟨⟩; exact hb) hstyle
  have hread : readName (source ++ (b :: gap ++ (arrowSign arrow ++ (gap' ++ (part ++ target))))) =
      (source, b :: gap ++ (arrowSign arrow ++ (gap' ++ (part ++ target)))) := by
    refine h.isName_source.readName_append ?_
    rintro c ⟨⟩
    unfold isNameChar
    rw [hb]
    rfl
  have harrow : trimStart (b :: gap ++ (arrowSign arrow ++ (gap' ++ (part ++ target)))) =
      arrowSign arrow ++ (gap' ++ (part ++ target)) := by
    obtain ⟨c, t, hc, hblank⟩ := exists_arrowSign_cons arrow
    rw [trimStart_gap h.isGap, hc]
    exact trimStart_cons hblank _
  have hafter : trimStart (gap' ++ (part ++ target)) = part ++ target := by
    rw [trimStart_gap hgap']
    cases hpart with
    | none => exact h.isName_target.trimStart_eq
    | some => exact trimStart_cons (by decide) _
  simp only [List.append_assoc]
  unfold readLine?
  rw [hkey]
  dsimp only
  rw [hread]
  dsimp only
  rw [if_neg h.isName_source.ne_nil, harrow, readArrow?_arrowSign]
  dsimp only
  rw [hafter]
  exact readEdge?_eq_some_iff.mpr ⟨label, part, target, hpart, h.isName_target, rfl, rfl⟩

/-- A line is read as an edge only if it is spelled like that edge. Every line that is spelled like an
edge is read as that edge, unless it begins like a style or no blank tells its first name from the
arrow. -/
theorem readLine?_edge_spelled (line source : Text) (arrow : Arrow) (label : Option Text)
    (target : Text) :
    (readLine? line = some (.edge source arrow label target) →
        ∃ gap, EdgeText line source gap arrow label target) ∧
      ∀ gap, EdgeText line source gap arrow label target → gap ≠ [] →
        sameIgnoringCase source "style".toList = false →
        readLine? line = some (.edge source arrow label target) :=
  ⟨edgeText_of_readLine?, fun _ h hgap hstyle => readLine?_of_edgeText h hgap hstyle⟩

/-- Both names look like the arrow, and the label holds a bar and a backslash before its last bar. -/
def lookalike : Text := "--> -->|\\|\\\\| -->".toList

theorem readLine?_edge_spelled_lookalike :
    readLine? lookalike =
        some (.edge "-->".toList .forward (some "\\|\\\\".toList) "-->".toList) ∧
      ∃ gap, EdgeText "a-.=--->b".toList "a-.=".toList gap .line none ">b".toList := by
  have hname : IsName "-->".toList :=
    .of_isNameChar (by decide) (List.all_eq_true.mp (by decide)) fun arrow => by
      cases arrow <;> decide
  have hbars : OnlyEscaped '|' "\\|\\\\".toList :=
    (onlyEscaped_escaped (by decide)).mpr ((onlyEscaped_escaped (by decide)).mpr (onlyEscaped_nil _))
  have hpart : LabelPart (some "\\|\\\\".toList) "|\\|\\\\| ".toList :=
    @LabelPart.some _ [' '] hbars (by decide) (by decide)
  have hline : EdgeText lookalike "-->".toList " ".toList .forward (some "\\|\\\\".toList)
      "-->".toList := ⟨hname, by decide, hname, [], _, by decide, hpart, by decide⟩
  exact ⟨(readLine?_edge_spelled _ _ _ _ _).2 _ hline (by decide) (by decide),
    (readLine?_edge_spelled _ _ _ _ _).1 (by decide)⟩

end DiagramDoc.Dialect.Flow
