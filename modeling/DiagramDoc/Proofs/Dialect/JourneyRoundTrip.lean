import DiagramDoc.Dialect.Journey
import DiagramDoc.Proofs.Dialect.LabelLine
import DiagramDoc.Proofs.Dialect.ReadText
import DiagramDoc.Proofs.Number.Numeral

/-!
# Reading a journey back

The text of a journey whose fields are tidy is read as the same journey, up to identifiers, to line
breaks in its fields and to the sign of zero. What any text without stray carriage returns is read
as has such fields, so writing it, reading it and writing it again changes nothing.
-/

namespace DiagramDoc.Dialect.Steps

open Text

/-! ### The written lines -/

/-- What the lines of a step need to be read as this step. -/
structure Readable (s : Step) : Prop where
  group : Tidy (unifyBreaks s.group)
  task : Tidy (unifyBreaks s.task)
  score : s.score.isFinite = true
  personas : ∀ p ∈ s.personas, p ≠ [] ∧ Tidy (unifyBreaks p)
  noComment : ¬ ['%', '%'] <+: unifyBreaks s.task
  noTitle : ¬ Opens titleWord (unifyBreaks s.task)
  noSection : ¬ Opens sectionWord (unifyBreaks s.task)

instance (s : Step) : Decidable (Readable s) :=
  decidable_of_iff (Tidy (unifyBreaks s.group) ∧ Tidy (unifyBreaks s.task) ∧
      s.score.isFinite = true ∧ (∀ p ∈ s.personas, p ≠ [] ∧ Tidy (unifyBreaks p)) ∧
      ¬ ['%', '%'] <+: unifyBreaks s.task ∧ ¬ Opens titleWord (unifyBreaks s.task) ∧
      ¬ Opens sectionWord (unifyBreaks s.task))
    ⟨fun ⟨hg, ht, hf, hp, hc, htitle, hsection⟩ => ⟨hg, ht, hf, hp, hc, htitle, hsection⟩,
      fun ⟨hg, ht, hf, hp, hc, htitle, hsection⟩ => ⟨hg, ht, hf, hp, hc, htitle, hsection⟩⟩

theorem readLine?_title {t : Text} (h : Tidy (unifyBreaks t)) :
    readLine? ("title ".toList ++ escape t) = some (.title (unifyBreaks t)) := by
  have hk : afterKeyword? "title".toList ("title ".toList ++ escape t) = some (escape t) :=
    afterKeyword?_title h
  unfold readLine?
  rw [hk]
  dsimp only
  rw [unescape_escape]

theorem readLine?_section {t : Text} (hne : t ≠ []) (h : Tidy (unifyBreaks t)) :
    readLine? ("section ".toList ++ escape t) = some (.group (unifyBreaks t)) := by
  have hk : afterKeyword? "title".toList ("section ".toList ++ escape t) = none := rfl
  have hs : afterKeyword? "section".toList ("section ".toList ++ escape t) = some (escape t) :=
    afterKeyword?_section h
  have he : escape t ≠ [] := fun he => hne (escapeFor_eq_nil.mp he)
  unfold readLine?
  rw [hk, hs]
  dsimp only
  rw [if_neg he, unescape_escape]

/-- Nothing in the text of a score is escaped. -/
theorem escapeFor_toText {x : Number} (h : x.isFinite = true) :
    escapeFor [':'] x.toText = x.toText := by
  have hlower : ∀ n : Fin 10, (Digits.digit n).toLower ∉ marks := by decide
  refine escapeFor_of_isWord meaning_colon fun m hm hmem => ?_
  obtain ⟨c, hc, rfl⟩ := List.mem_map.mp hmem
  rcases Number.mem_toText h hc with hd | rfl | rfl
  · obtain ⟨n, rfl⟩ := Digits.exists_digit hd
    exact hlower n hm
  · exact absurd hm (by decide)
  · exact absurd hm (by decide)

theorem readScore_toText {x : Number} (h : x.isFinite = true) :
    readScore (' ' :: x.toText) = x.unsignZero := by
  unfold readScore
  rw [Number.ofText_blank (by decide), Number.ofText_toText h]
  dsimp only
  rw [if_pos (Number.isFinite_unsignZero h)]

theorem personasText_cons (p : Text) (ps : List Text) :
    personasText (p :: ps) = ' ' :: join [',', ' '] ((p :: ps).map (escapeFor [','])) := rfl

theorem readPersonas_eq (t : Text) : readPersonas t = (trimmedPieces ',' t).map unescape := rfl

theorem readPersonas_text {personas : List Text}
    (h : ∀ p ∈ personas, p ≠ [] ∧ Tidy (unifyBreaks p)) :
    readPersonas (personasText personas) = personas.map unifyBreaks := by
  cases personas with
  | nil => rfl
  | cons p ps =>
    rw [readPersonas_eq, personasText_cons,
      trimmedPieces_join meaning_comma (by decide) (by decide) h, List.map_map]
    exact List.map_congr_left fun t _ => unescape_escapeFor meaning_comma t

theorem stepLine_eq (s : Step) : stepLine s =
    escapeFor [':'] s.task ++ ':' :: ' ' :: (s.score.toText ++ ':' :: personasText s.personas) := by
  unfold stepLine
  simp

theorem readLine?_stepLine {s : Step} (h : Readable s) :
    readLine? (stepLine s) =
      some (.step ⟨unifyBreaks s.task, s.score.unsignZero, s.personas.map unifyBreaks⟩) := by
  have hword : ∀ w, IsWord w → ¬ Opens w (unifyBreaks s.task) →
      afterKeyword? w (stepLine s) = none := by
    intro w hw ho
    rw [stepLine_eq]
    exact afterKeyword?_escapeFor_append meaning_colon hw (by decide) ho
      fun hb => absurd hb (by decide)
  have htitle : afterKeyword? "title".toList (stepLine s) = none :=
    hword titleWord (by decide) h.noTitle
  have hsection : afterKeyword? "section".toList (stepLine s) = none :=
    hword sectionWord (by decide) h.noSection
  have htask : cutUnescaped? ':' (stepLine s) = some (escapeFor [':'] s.task,
      ' ' :: (s.score.toText ++ ':' :: personasText s.personas)) := by
    rw [stepLine_eq]
    exact cutUnescaped?_escapeFor (.inr (.inr (by decide))) (by decide) _ _
  have hscore : cutUnescaped? ':' (' ' :: (s.score.toText ++ ':' :: personasText s.personas)) =
      some (' ' :: s.score.toText, personasText s.personas) := by
    rw [cutUnescaped?_blank (by decide), ← escapeFor_toText h.score,
      cutUnescaped?_escapeFor (.inr (.inr (by decide))) (by decide)]
    rfl
  unfold readLine? readStep?
  rw [htitle, hsection, htask]
  dsimp only [Option.map_some]
  rw [hscore]
  dsimp only [Option.getD_some]
  rw [trim_escapeFor meaning_colon h.task, unescape_escapeFor meaning_colon,
    readScore_toText h.score, readPersonas_text h.personas]

theorem lineFeed_not_mem_stepLine {s : Step} (h : s.score.isFinite = true) :
    '\n' ∉ stepLine s := by
  have hscore : '\n' ∉ s.score.toText :=
    Number.not_mem_toText h (by decide) (by decide) (by decide)
  have hpersonas : '\n' ∉ personasText s.personas := by
    cases s.personas with
    | nil => exact List.not_mem_nil
    | cons p ps =>
      rw [personasText_cons]
      exact List.not_mem_cons_of_ne_of_not_mem (by decide)
        (feed_not_mem_join_fields (by decide))
  rw [stepLine_eq]
  simp [lineFeed_not_mem_escapeFor, hscore, hpersonas]

theorem written_stepLine {s : Step} (h : Readable s) : Written (stepLine s) where
  noFeed := lineFeed_not_mem_stepLine h.score
  trimmed := by
    have htask := (trim_eq_self_iff.mp (trim_escapeFor meaning_colon h.task)).1
    refine trim_eq_self_iff.mpr ⟨?_, ?_⟩
    · rw [stepLine_eq]
      cases he : escapeFor [':'] s.task with
      | nil => exact fun c hc => Option.some.inj hc ▸ by decide
      | cons b t => exact fun c hc => htask c (by rw [he]; exact hc)
    · -- The line ends with its last persona, or with the colon before them.
      have hend : ∃ t c, stepLine s = t ++ [c] ∧ isBlank c = false := by
        cases hp : s.personas with
        | nil =>
          refine ⟨escapeFor [':'] s.task ++ ':' :: ' ' :: s.score.toText, ':', ?_, by decide⟩
          rw [stepLine_eq, hp]
          simp [personasText]
        | cons p ps =>
          obtain ⟨t, c, hj, hc⟩ := join_fields_concat ',' meaning_comma (hp ▸ h.personas)
          refine ⟨escapeFor [':'] s.task ++ ':' :: ' ' :: (s.score.toText ++ ':' :: ' ' :: t), c,
            ?_, hc⟩
          rw [stepLine_eq, hp, personasText_cons, hj]
          simp
      obtain ⟨t, c, he, hc⟩ := hend
      intro d hd
      rw [he, List.getLast?_concat] at hd
      exact Option.some.inj hd ▸ hc
  content := by
    rw [stepLine_eq]
    exact isContent_escapeFor_append meaning_colon (by decide) h.noComment

theorem tidy_groupOf {s : Step} (h : Readable s) : Tidy (unifyBreaks (groupOf s)) := by
  unfold groupOf
  split
  · decide
  · exact h.group

theorem groupOf_ne_nil (s : Step) : groupOf s ≠ [] := by
  unfold groupOf
  split
  · decide
  · assumption

theorem written_stepLines {steps : List Step} (h : ∀ s ∈ steps, Readable s)
    (current : Option Text) : ∀ line ∈ stepLines current steps, Written line := by
  induction steps generalizing current with
  | nil => exact fun line hline => absurd hline List.not_mem_nil
  | cons s steps ih =>
    obtain ⟨hs, hrest⟩ := List.forall_mem_cons.mp h
    rw [stepLines]
    split
    · exact List.forall_mem_cons.mpr ⟨written_stepLine hs, ih hrest _⟩
    · exact List.forall_mem_cons.mpr ⟨written_section (tidy_groupOf hs) (groupOf_ne_nil s),
        List.forall_mem_cons.mpr ⟨written_stepLine hs, ih hrest _⟩⟩

/-- The lines that count in the text of a journey. -/
def writtenLines (j : Journey) : List Text := titleLines j.title ++ stepLines none j.steps

theorem contentLines_write {j : Journey} (ht : Tidy (unifyBreaks j.title))
    (h : ∀ s ∈ j.steps, Readable s) :
    contentLines (write j) = "journey".toList :: writtenLines j :=
  contentLines_of_written ⟨by decide, by decide, by decide⟩
    (List.forall_mem_append.mpr ⟨written_titleLines ht, written_stepLines h none⟩)

/-! ### How many steps are read -/

/-- The words that begin a line of their own, in any ASCII case. -/
def keywords : List Text := [titleWord, sectionWord]

theorem forall_mem_keywords {p : Text → Prop} :
    (∀ word ∈ keywords, p word) ↔ p titleWord ∧ p sectionWord := by
  simp [keywords]

theorem isWord_keywords : ∀ word ∈ keywords, IsWord word := by decide

def isStepLine (line : Text) : Bool :=
  match readLine? line with
  | some (.step _) => true
  | _ => false

theorem length_readLine (d : Draft) (line : Text) :
    (d.readLine line).chart.steps.length = d.chart.steps.length + (isStepLine line).toNat := by
  unfold Draft.readLine isStepLine
  split
  · next h => rw [h]; rfl
  · next h => rw [h]; rfl
  · next h => rw [h]; exact List.length_append
  · next h => rw [h]; rfl

theorem isStepLine_of_keyword {line word : Text} (hw : word ∈ keywords)
    (h : afterKeyword? word line ≠ none) : isStepLine line = false := by
  unfold isStepLine readLine?
  cases ht : afterKeyword? "title".toList line with
  | some title => rfl
  | none =>
    cases hs : afterKeyword? "section".toList line with
    | some name => rfl
    | none =>
      have hall : ∀ word ∈ keywords, afterKeyword? word line = none :=
        forall_mem_keywords.mpr ⟨ht, hs⟩
      exact absurd (hall word hw) h

/-- A line with a colon is the line of a step just if it belongs to no keyword. -/
theorem isStepLine_iff {line : Text} {cut : Text × Text} (hc : cutUnescaped? ':' line = some cut) :
    isStepLine line = true ↔ ∀ word ∈ keywords, afterKeyword? word line = none := by
  constructor
  · intro h word hw
    refine Classical.byContradiction fun hk => ?_
    rw [isStepLine_of_keyword hw hk] at h
    cases h
  · intro h
    obtain ⟨ht, hs⟩ := forall_mem_keywords.mp h
    unfold titleWord at ht
    unfold sectionWord at hs
    unfold isStepLine readLine? readStep?
    rw [ht, hs, hc]
    rfl

theorem counts_stepLine (s : Step) :
    (isStepLine (trim (stepLine s)) && isContent (trim (stepLine s))) =
      decide (¬ Mistaken keywords s.task) := by
  obtain ⟨u, htask, hu⟩ := exists_trimStart_escapeFor meaning_colon s.task
  rw [stepLine_eq, trim_append_cons (by decide), htask]
  generalize trimEnd _ = rest
  have hcut : cutUnescaped? ':' (escapeFor [':'] u ++ ':' :: rest) = some (escapeFor [':'] u, rest) :=
    cutUnescaped?_escapeFor (.inr (.inr (by decide))) (by decide) u rest
  have hiff := not_mistaken_iff meaning_colon rest isWord_keywords
    (c := ':') (by decide) (fun _ _ hb => absurd hb (by decide)) hu
  rw [← isStepLine_iff hcut] at hiff
  rw [Bool.eq_iff_iff, Bool.and_eq_true, and_comm, hiff, decide_eq_true_iff]

/-- Lines of sections are no lines of steps, so each step is counted by its own line. -/
theorem countP_stepLines (steps : List Step) (current : Option Text) :
    ((stepLines current steps).map trim).countP (fun line => isStepLine line && isContent line) =
      steps.countP fun s => decide (¬ Mistaken keywords s.task) := by
  induction steps generalizing current with
  | nil => rfl
  | cons s steps ih =>
    have hgroup : isStepLine (trim ("section ".toList ++ escape (groupOf s))) = false :=
      isStepLine_of_keyword (by simp [keywords]) (afterKeyword?_trim_section (groupOf s))
    rw [stepLines]
    split
    · rw [List.map_cons, List.countP_cons, ih, counts_stepLine, List.countP_cons]
    · rw [List.map_cons, List.map_cons, List.countP_cons, List.countP_cons, ih, counts_stepLine,
        hgroup, List.countP_cons]
      simp

theorem lineFeed_not_mem_stepLines {steps : List Step}
    (h : ∀ s ∈ steps, s.score.isFinite = true) (current : Option Text) :
    ∀ line ∈ stepLines current steps, '\n' ∉ line := by
  induction steps generalizing current with
  | nil => exact fun line hline => absurd hline List.not_mem_nil
  | cons s steps ih =>
    obtain ⟨hs, hrest⟩ := List.forall_mem_cons.mp h
    have hg : '\n' ∉ escape (groupOf s) := lineFeed_not_mem_escapeFor (groupOf s)
    rw [stepLines]
    split
    · exact List.forall_mem_cons.mpr ⟨lineFeed_not_mem_stepLine hs, ih hrest _⟩
    · exact List.forall_mem_cons.mpr ⟨by simp [hg],
        List.forall_mem_cons.mpr ⟨lineFeed_not_mem_stepLine hs, ih hrest _⟩⟩

/-- Reading the text of a journey finds the steps whose tasks are not mistaken for other lines. -/
theorem length_read {j : Journey} (hj : ∀ s ∈ j.steps, s.score.isFinite = true) {rest : List Text}
    (h : contentLines (write j) = "journey".toList :: rest) (scope : Scope) :
    (read rest scope).1.steps.length = j.steps.countP fun s => decide (¬ Mistaken keywords s.task) := by
  have hall := List.forall_mem_append.mpr
    ⟨lineFeed_not_mem_titleLines j.title, lineFeed_not_mem_stepLines hj none⟩
  have hnone : ∀ line ∈ titleLines j.title, isStepLine (trim line) = false :=
    fun line hline => isStepLine_of_keyword (by simp [keywords])
      (afterKeyword?_titleLines j.title line hline)
  have hcount := countP_contentLines_body (by decide) (by decide) (by decide) hall hnone h
  unfold read
  rw [count_foldl (fun d : Draft => d.chart.steps.length) length_readLine, hcount,
    countP_stepLines]
  exact Nat.zero_add _

/-! ### Reading the written lines -/

/-- A step as its lines are read. -/
def reread (s : Step) : Step :=
  { id := s.id, group := unifyBreaks (groupOf s), task := unifyBreaks s.task
    score := s.score.unsignZero, personas := s.personas.map unifyBreaks }

theorem readLine_section (d : Draft) {t : Text} (hne : t ≠ []) (h : Tidy (unifyBreaks t)) :
    d.readLine ("section ".toList ++ escape t) = { d with group := unifyBreaks t } := by
  unfold Draft.readLine
  rw [readLine?_section hne h]

theorem readLine_stepLine {d : Draft} {s : Step} (h : Readable s)
    (hg : d.group = unifyBreaks (groupOf s)) :
    d.readLine (stepLine s) =
      { d with
        scope := d.scope.fresh.2
        chart :=
          { d.chart with
            steps := d.chart.steps ++ [Entity.withId (reread s) d.scope.fresh.1] } } := by
  unfold Draft.readLine
  rw [readLine?_stepLine h]
  dsimp only
  rw [hg]
  rfl

theorem readLines_stepLines {steps : List Step} (h : ∀ s ∈ steps, Readable s) (d : Draft)
    (current : Option Text) (hc : ∀ group ∈ current, d.group = unifyBreaks group) :
    ∃ scope group added, (stepLines current steps).foldl Draft.readLine d =
        { scope, group, chart := { d.chart with steps := d.chart.steps ++ added } } ∧
      Entity.anonymous added = Entity.anonymous (steps.map reread) := by
  induction steps generalizing d current with
  | nil =>
    refine ⟨d.scope, d.group, [], ?_, rfl⟩
    rw [List.append_nil]
    rfl
  | cons s steps ih =>
    obtain ⟨hs, hrest⟩ := List.forall_mem_cons.mp h
    -- Whether or not a section begins here, the line of the step is read in its own section.
    have hstep : ∃ e : Draft, e.chart = d.chart ∧ e.group = unifyBreaks (groupOf s) ∧
        (stepLines current (s :: steps)).foldl Draft.readLine d =
          (stepLines (some (groupOf s)) steps).foldl Draft.readLine (e.readLine (stepLine s)) := by
      rw [stepLines]
      split
      · next hcur => exact ⟨d, rfl, hc _ hcur, by rw [hcur]; rfl⟩
      · refine ⟨{ d with group := unifyBreaks (groupOf s) }, rfl, rfl, ?_⟩
        rw [List.foldl_cons, List.foldl_cons, readLine_section d (groupOf_ne_nil s)
          (tidy_groupOf hs)]
    obtain ⟨e, hchart, hgroup, hfold⟩ := hstep
    obtain ⟨scope, group, added, hlast, hanon⟩ := ih hrest (e.readLine (stepLine s))
      (some (groupOf s)) (by
        rw [readLine_stepLine hs hgroup]
        rintro g ⟨⟩
        exact hgroup)
    refine ⟨scope, group, Entity.withId (reread s) e.scope.fresh.1 :: added, ?_, ?_⟩
    · rw [hfold, hlast, readLine_stepLine hs hgroup, hchart]
      simp only [List.append_assoc, List.singleton_append]
    · exact Entity.anonymous_withId_cons hanon _ _

theorem read_titleLines (scope : Scope) {t : Text} (h : Tidy (unifyBreaks t)) :
    (titleLines t).foldl Draft.readLine { scope } =
      { scope, chart := { title := unifyBreaks t } } := by
  unfold titleLines
  split
  · next he =>
    rw [he]
    rfl
  · rw [List.foldl_cons, List.foldl_nil]
    unfold Draft.readLine
    rw [readLine?_title h]

/-- Reading the lines of a journey back. -/
theorem read_writtenLines {j : Journey} (ht : Tidy (unifyBreaks j.title))
    (h : ∀ s ∈ j.steps, Readable s) (scope : Scope) :
    (read (writtenLines j) scope).1.title = unifyBreaks j.title ∧
      Entity.anonymous (read (writtenLines j) scope).1.steps =
        Entity.anonymous (j.steps.map reread) := by
  obtain ⟨_, _, added, hread, hanon⟩ := readLines_stepLines h
    { scope, chart := { title := unifyBreaks j.title } } none (fun g hg => nomatch hg)
  unfold read writtenLines
  rw [List.foldl_append, read_titleLines scope ht, hread]
  exact ⟨rfl, hanon⟩

/-! ### Journeys that were read -/

/-- What reading a line without carriage returns makes of a step. -/
structure Settled (s : Step) : Prop where
  group_ne : s.group ≠ []
  group : Neat s.group
  task : Neat s.task
  score : s.score.isFinite = true
  personas : ∀ p ∈ s.personas, p ≠ [] ∧ Neat p
  noComment : ¬ ['%', '%'] <+: s.task
  noTitle : ¬ Opens titleWord s.task
  noSection : ¬ Opens sectionWord s.task

theorem Settled.readable {s : Step} (h : Settled s) : Readable s where
  group := h.group.tidy_unifyBreaks
  task := h.task.tidy_unifyBreaks
  score := h.score
  personas p hp := ⟨(h.personas p hp).1, (h.personas p hp).2.tidy_unifyBreaks⟩
  noComment := by
    rw [h.task.unifyBreaks_eq]
    exact h.noComment
  noTitle := by
    rw [h.task.unifyBreaks_eq]
    exact h.noTitle
  noSection := by
    rw [h.task.unifyBreaks_eq]
    exact h.noSection

theorem Settled.reread_eq {s : Step} (h : Settled s) :
    reread s = { s with score := s.score.unsignZero } := by
  have hp : s.personas.map unifyBreaks = s.personas :=
    (List.map_congr_left fun p hp => (h.personas p hp).2.unifyBreaks_eq).trans (List.map_id _)
  have hg : groupOf s = s.group := if_neg h.group_ne
  unfold reread
  rw [hg, hp, h.group.unifyBreaks_eq, h.task.unifyBreaks_eq]

theorem isFinite_readScore (t : Text) : (readScore t).isFinite = true := by
  have hd : Step.defaultScore.isFinite = true := Number.isFinite_ofNat (n := 3) (by decide)
  unfold readScore
  dsimp only
  split
  · assumption
  · exact hd

theorem neat_readPersonas {t : Text} (hr : '\r' ∉ t) : ∀ p ∈ readPersonas t, p ≠ [] ∧ Neat p := by
  rw [readPersonas_eq]
  refine List.forall_mem_map.mpr fun piece hp => ?_
  obtain ⟨hne, hneat⟩ := neat_of_mem_trimmedPieces hr hp
  exact ⟨fun he => hne (unescape_eq_nil.mp he), hneat⟩

theorem settled_entry {line : Text} {entry : Entry} (hl : Clean line)
    (htitle : afterKeyword? titleWord line = none)
    (hsection : afterKeyword? sectionWord line = none) (h : readStep? line = some entry)
    {group : Text} (hne : group ≠ []) (hg : Neat group) (id : Nat) :
    Settled { id, group, task := entry.task, score := entry.score, personas := entry.personas } := by
  unfold readStep? at h
  obtain ⟨⟨task, rest⟩, hcut, he⟩ := Option.map_eq_some_iff.mp h
  have hline := eq_append_of_cutUnescaped? hcut
  obtain ⟨htask, hrest⟩ := not_mem_of_eq_append hline hl.noReturn
  have hpersonas : '\r' ∉ ((cutUnescaped? ':' rest).getD (rest, [])).2 := by
    cases hc : cutUnescaped? ':' rest with
    | none => exact List.not_mem_nil
    | some cut => exact (not_mem_of_eq_append (eq_append_of_cutUnescaped? hc) hrest).2
  subst he
  exact {
    group_ne := hne
    group := hg
    task := neat_unescape_trim htask
    score := isFinite_readScore _
    personas := neat_readPersonas hpersonas
    noComment := fun hp =>
      hl.noComment (prefix_of_unescape not_escapable_percent hl.head hline hp)
    noTitle := not_opens_unescape (by decide) hl.head hline htitle
    noSection := not_opens_unescape (by decide) hl.head hline hsection }

theorem neat_defaultGroup : defaultGroup ≠ [] ∧ Neat defaultGroup := by decide

structure SettledJourney (j : Journey) : Prop where
  title : Neat j.title
  steps : ∀ s ∈ j.steps, Settled s

structure Draft.Settled (d : Draft) : Prop where
  chart : SettledJourney d.chart
  group_ne : d.group ≠ []
  group : Neat d.group

/-- One line keeps a draft settled. -/
theorem settled_readLine {d : Draft} {line : Text} (hd : d.Settled) (hl : Clean line) :
    (d.readLine line).Settled := by
  unfold Draft.readLine readLine?
  cases ht : afterKeyword? "title".toList line with
  | some title =>
    exact ⟨⟨neat_of_afterKeyword? ht hl.noReturn, hd.chart.steps⟩, hd.group_ne, hd.group⟩
  | none =>
    dsimp only
    cases hs : afterKeyword? "section".toList line with
    | some name =>
      dsimp only
      split
      · exact ⟨hd.chart, neat_defaultGroup.1, neat_defaultGroup.2⟩
      · next hne =>
        exact ⟨hd.chart, fun he => hne (unescape_eq_nil.mp he),
          neat_of_afterKeyword? hs hl.noReturn⟩
    | none =>
      dsimp only
      cases hr : readStep? line with
      | none => exact ⟨hd.chart, hd.group_ne, hd.group⟩
      | some entry =>
        have hstep := settled_entry hl ht hs hr hd.group_ne hd.group
        exact ⟨⟨hd.chart.title, List.forall_mem_append.mpr
          ⟨hd.chart.steps, List.forall_mem_singleton.mpr (hstep _)⟩⟩, hd.group_ne, hd.group⟩

theorem settled_readLines {lines : List Text} {d : Draft} (hd : d.Settled)
    (hl : ∀ line ∈ lines, Clean line) : (lines.foldl Draft.readLine d).Settled := by
  induction lines generalizing d with
  | nil => exact hd
  | cons line lines ih =>
    obtain ⟨hline, hrest⟩ := List.forall_mem_cons.mp hl
    exact ih (settled_readLine hd hline) hrest

theorem settled_read {lines : List Text} (hl : ∀ line ∈ lines, Clean line) (scope : Scope) :
    SettledJourney (read lines scope).1 := by
  have hd : ({ scope } : Draft).Settled :=
    ⟨⟨neat_nil, fun s hs => nomatch hs⟩, neat_defaultGroup.1, neat_defaultGroup.2⟩
  exact (settled_readLines hd hl).chart

/-! ### Writing again -/

theorem stepLines_map {steps : List Step} {f : Step → Step}
    (h : ∀ s ∈ steps, groupOf (f s) = groupOf s ∧ stepLine (f s) = stepLine s)
    (current : Option Text) : stepLines current (steps.map f) = stepLines current steps := by
  induction steps generalizing current with
  | nil => rfl
  | cons s steps ih =>
    obtain ⟨⟨hg, hl⟩, hrest⟩ := List.forall_mem_cons.mp h
    rw [List.map_cons, stepLines, stepLines, hg, hl, ih hrest, ih hrest]

theorem stepLines_anonymous (steps : List Step) :
    stepLines none (Entity.anonymous steps) = stepLines none steps :=
  stepLines_map (f := fun s => Entity.withId s EntityId.missing) (fun _ _ => ⟨rfl, rfl⟩) none

theorem stepLine_reread {s : Step} (h : Settled s) :
    groupOf (reread s) = groupOf s ∧ stepLine (reread s) = stepLine s := by
  rw [h.reread_eq]
  refine ⟨rfl, ?_⟩
  unfold stepLine
  dsimp only
  rw [Number.toText_unsignZero]

/-- A journey that was read is written as it is when it was read again. -/
theorem write_read {j : Journey} (h : SettledJourney j) (scope : Scope) :
    write (read (writtenLines j) scope).1 = write j := by
  obtain ⟨htitle, hsteps⟩ := read_writtenLines h.title.tidy_unifyBreaks
    (fun s hs => (h.steps s hs).readable) scope
  have hlines : stepLines none (read (writtenLines j) scope).1.steps = stepLines none j.steps := by
    rw [← stepLines_anonymous, hsteps, stepLines_anonymous]
    exact stepLines_map (fun s hs => stepLine_reread (h.steps s hs)) none
  unfold write
  rw [htitle, h.title.unifyBreaks_eq, hlines]

end DiagramDoc.Dialect.Steps

namespace DiagramDoc.Diagram

open Dialect

/-- Reading the text of a journey back gives the same journey, up to identifiers, if its lines can be
told apart: line breaks are unified, zero loses its sign, and a step without a section is in the
default one. -/
theorem readText_writeText_journey {d : Diagram} (hk : d.kind = .journey)
    (ht : Text.Tidy (Text.unifyBreaks d.journey.title))
    (h : ∀ s ∈ d.journey.steps, Steps.Readable s) :
    ∃ e, readText d.writeText d = .ok e ∧ e.kind = .journey ∧
      e.journey.title = Text.unifyBreaks d.journey.title ∧
      Entity.anonymous e.journey.steps = Entity.anonymous (d.journey.steps.map Steps.reread) := by
  have htext : d.writeText = Steps.write d.journey := by
    unfold writeText
    rw [hk]
  have hheader : Grammar.ofHeader "journey".toList = .headed .journey := by decide
  have hlines := Steps.contentLines_write ht h
  obtain ⟨counter, hread⟩ := readText_headed hlines hheader d
  rw [← htext] at hread
  exact ⟨_, hread, rfl, Steps.read_writtenLines ht h _⟩

/-- A section that is left and met again, tasks that are keywords or begin like them, separators in
every field, and the same persona twice. -/
def brambly : Diagram where
  kind := .journey
  journey :=
    { title := "\nsection x, y".toList
      steps :=
        [{ id := 4, group := [], task := "title".toList, score := .signedZero true
           personas := ["a, b:".toList, "a, b:".toList, "\\".toList] },
         { id := 4, group := "Journey".toList, task := "section:\r\n".toList
           score := .ofBits 0x3FB999999999999A, personas := [] },
         { id := 0, group := "a:\r\nb\\".toList, task := []
           score := .ofBits 0x7E37E43C8800759C, personas := [":".toList, "x\n".toList] },
         { id := 0, group := [], task := "Titles: 5: %%".toList, score := -7 }] }

theorem readText_writeText_brambly :
    ∃ e, readText brambly.writeText brambly = .ok e ∧ e.kind = .journey ∧
      e.journey.title = Text.unifyBreaks brambly.journey.title ∧
      Entity.anonymous e.journey.steps =
        Entity.anonymous (brambly.journey.steps.map Steps.reread) :=
  readText_writeText_journey rfl (by decide) (by decide +kernel)

end DiagramDoc.Diagram
