import DiagramDoc.Proofs.Dialect.GanttLines
import DiagramDoc.Proofs.Dialect.ReadText

/-!
# Reading a gantt chart back

The tasks whose lines can be told from other lines come back as they are, up to identifiers and line
breaks. If a chart was read from a text these are all but those named by a keyword, and if there are
none of these the chart is written the same way again.
-/

namespace DiagramDoc.Dialect.Tasks

open Text

/-! ### Reading the written lines -/

/-- A task as its lines are read. -/
def reread (t : Task) : Task :=
  { id := t.id, group := unifyBreaks (groupOf t), label := unifyBreaks t.label
    start := unifyBreaks t.start, finish := unifyBreaks t.finish, status := t.status }

theorem readLine_section (d : Draft) {t : Text} (hne : t ≠ []) (h : Tidy (unifyBreaks t)) :
    d.readLine ("section ".toList ++ escape t) = { d with group := unifyBreaks t } := by
  unfold Draft.readLine
  rw [readLine?_section hne h]

theorem readLine_taskLine {d : Draft} {t : Task} (h : Readable t)
    (hk : isKeyword (unifyBreaks t.label) = false) (hg : d.group = unifyBreaks (groupOf t)) :
    d.readLine (trim (taskLine t)) =
      { d with
        scope := d.scope.fresh.2
        chart :=
          { d.chart with
            tasks := d.chart.tasks ++ [Entity.withId (reread t) d.scope.fresh.1] } } := by
  unfold Draft.readLine
  rw [readLine?_taskLine h hk]
  dsimp only
  rw [hg]
  rfl

theorem readLines_taskLines {tasks : List Task}
    (h : ∀ t ∈ tasks, Readable t ∧ isKeyword (unifyBreaks t.label) = false) (d : Draft)
    (current : Option Text) (hc : ∀ group ∈ current, d.group = unifyBreaks group) :
    ∃ scope group added, ((taskLines current tasks).map trim).foldl Draft.readLine d =
        { scope, group, chart := { d.chart with tasks := d.chart.tasks ++ added } } ∧
      Entity.anonymous added = Entity.anonymous (tasks.map reread) := by
  induction tasks generalizing d current with
  | nil =>
    refine ⟨d.scope, d.group, [], ?_, rfl⟩
    rw [List.append_nil]
    rfl
  | cons t tasks ih =>
    obtain ⟨⟨ht, hk⟩, hrest⟩ := List.forall_mem_cons.mp h
    have hw := written_section (tidy_groupOf ht) (groupOf_ne_nil t)
    -- Whether or not a section begins here, the line of the task is read in its own section.
    have hstep : ∃ e : Draft, e.chart = d.chart ∧ e.group = unifyBreaks (groupOf t) ∧
        ((taskLines current (t :: tasks)).map trim).foldl Draft.readLine d =
          ((taskLines (some (groupOf t)) tasks).map trim).foldl Draft.readLine
            (e.readLine (trim (taskLine t))) := by
      rw [taskLines]
      split
      · next hcur => exact ⟨d, rfl, hc _ hcur, by rw [hcur]; rfl⟩
      · refine ⟨{ d with group := unifyBreaks (groupOf t) }, rfl, rfl, ?_⟩
        rw [List.map_cons, List.map_cons, List.foldl_cons, List.foldl_cons, hw.trimmed,
          readLine_section d (groupOf_ne_nil t) (tidy_groupOf ht)]
    obtain ⟨e, hchart, hgroup, hfold⟩ := hstep
    obtain ⟨scope, group, added, hlast, hanon⟩ := ih hrest (e.readLine (trim (taskLine t)))
      (some (groupOf t)) (by
        rw [readLine_taskLine ht hk hgroup]
        rintro g ⟨⟩
        exact hgroup)
    refine ⟨scope, group, Entity.withId (reread t) e.scope.fresh.1 :: added, ?_, ?_⟩
    · rw [hfold, hlast, readLine_taskLine ht hk hgroup, hchart]
      simp only [List.append_assoc, List.singleton_append]
    · exact Entity.anonymous_withId_cons hanon _ _

/-- The first lines set the title and the date format; an empty one is the default format. -/
theorem read_headLines (scope : Scope) {title format : Text} (ht : Tidy (unifyBreaks title))
    (hf : Format format) (hne : format ≠ []) :
    (titleLines title ++ formatLines format).foldl Draft.readLine { scope } =
      { scope, chart := { title := unifyBreaks title, dateFormat := format } } := by
  have htitle : (titleLines title).foldl Draft.readLine { scope } =
      { scope, chart := { title := unifyBreaks title } } := by
    unfold titleLines
    split
    · next he =>
      rw [he]
      rfl
    · rw [List.foldl_cons, List.foldl_nil]
      unfold Draft.readLine
      rw [readLine?_title ht]
  unfold formatLines
  rw [List.foldl_append, htitle, if_neg hne, List.foldl_cons, List.foldl_nil]
  unfold Draft.readLine
  rw [readLine?_format hf]
  dsimp only
  rw [if_neg hne]

/-- Reading the lines of a chart back. -/
theorem read_writtenLines {g : Gantt} (ht : Tidy (unifyBreaks g.title)) (hf : Format g.dateFormat)
    (hne : g.dateFormat ≠ [])
    (h : ∀ t ∈ g.tasks, Readable t ∧ isKeyword (unifyBreaks t.label) = false) (scope : Scope) :
    (read (writtenLines g) scope).1.title = unifyBreaks g.title ∧
      (read (writtenLines g) scope).1.dateFormat = g.dateFormat ∧
      Entity.anonymous (read (writtenLines g) scope).1.tasks =
        Entity.anonymous (g.tasks.map reread) := by
  obtain ⟨_, _, added, hread, hanon⟩ := readLines_taskLines h
    { scope, chart := { title := unifyBreaks g.title, dateFormat := g.dateFormat } } none
    (fun g hg => nomatch hg)
  unfold read writtenLines
  rw [List.foldl_append, read_headLines scope ht hf hne, hread]
  exact ⟨rfl, rfl, hanon⟩

/-! ### Charts that were read -/

/-- What reading a line without carriage returns makes of a task. -/
structure Settled (t : Task) : Prop where
  group_ne : t.group ≠ []
  group : Neat t.group
  label : Neat t.label
  start : Neat t.start
  finish : Neat t.finish
  noComment : ¬ ['%', '%'] <+: t.label
  noKeyword : ∀ word ∈ keywords, ¬ Opens word t.label
  start_first : t.start = [] → t.finish = []
  noStatus : t.status = none →
    TaskStatus.ofWord? t.start = none ∧ TaskStatus.ofWord? t.finish = none

theorem Settled.readable {t : Task} (h : Settled t) : Readable t where
  group := h.group.tidy_unifyBreaks
  label := h.label.tidy_unifyBreaks
  start := h.start.tidy_unifyBreaks
  finish := h.finish.tidy_unifyBreaks
  noComment := by
    rw [h.label.unifyBreaks_eq]
    exact h.noComment
  noKeyword := by
    rw [h.label.unifyBreaks_eq]
    exact h.noKeyword
  start_first := h.start_first
  noStatus := h.noStatus

theorem Settled.reread_eq {t : Task} (h : Settled t) : reread t = t := by
  have hg : groupOf t = t.group := if_neg h.group_ne
  unfold reread
  rw [hg, h.group.unifyBreaks_eq, h.label.unifyBreaks_eq, h.start.unifyBreaks_eq,
    h.finish.unifyBreaks_eq]

theorem Settled.comesBack_iff {t : Task} (h : Settled t) :
    ComesBack t ↔ isKeyword t.label = false := by
  have hu : unindented t.label = t.label :=
    (unindented_of_tidy h.label.tidy_unifyBreaks).trans h.label.unifyBreaks_eq
  have hm : ¬ Mistaken keywords t.label := by
    unfold Mistaken
    rw [hu]
    rintro (hc | ⟨word, hw, ho⟩)
    · exact h.noComment hc
    · exact h.noKeyword word hw ho
  unfold ComesBack
  rw [hu]
  exact and_iff_right hm

/-- The dates fill up from the start, and without a status neither of them is a status word. -/
structure Entry.Settled (e : Entry) : Prop where
  start : Neat e.start
  finish : Neat e.finish
  start_first : e.start = [] → e.finish = []
  noStatus : e.status = none →
    TaskStatus.ofWord? e.start = none ∧ TaskStatus.ofWord? e.finish = none

theorem settled_addPiece {e : Entry} {piece : Text} (he : e.Settled) (hne : piece ≠ [])
    (hp : Neat (unescape piece)) : (e.addPiece piece).Settled := by
  have hsome : unescape piece ≠ [] := fun hu => hne (unescape_eq_nil.mp hu)
  by_cases hdate : e.status = none → TaskStatus.ofWord? piece = none
  · rw [addPiece_date hdate]
    split
    · next hstart =>
      -- Nothing was there but a status, so the end is still empty.
      have hfinish := he.start_first hstart
      refine ⟨hp, he.finish, fun hu => absurd hu hsome, fun hn => ⟨?_, (he.noStatus hn).2⟩⟩
      exact ofWord?_unescape (hdate hn)
    · next hstart =>
      split
      · refine ⟨he.start, hp, fun hu => absurd hu hstart, fun hn => ⟨(he.noStatus hn).1, ?_⟩⟩
        exact ofWord?_unescape (hdate hn)
      · exact he
  · obtain ⟨hs, hw⟩ := Classical.not_imp.mp hdate
    obtain ⟨s, hw⟩ := Option.ne_none_iff_exists'.mp hw
    rw [addPiece_status hs hw]
    exact ⟨he.start, he.finish, he.start_first, fun hn => nomatch hn⟩

theorem label_addPiece (e : Entry) (piece : Text) : (e.addPiece piece).label = e.label := by
  unfold Entry.addPiece
  split
  · rfl
  · split
    · rfl
    · split <;> rfl

theorem settled_addPieces {pieces : List Text} {e : Entry} (he : e.Settled)
    (h : ∀ piece ∈ pieces, piece ≠ [] ∧ Neat (unescape piece)) :
    (pieces.foldl Entry.addPiece e).Settled ∧
      (pieces.foldl Entry.addPiece e).label = e.label := by
  induction pieces generalizing e with
  | nil => exact ⟨he, rfl⟩
  | cons piece pieces ih =>
    obtain ⟨⟨hne, hp⟩, hrest⟩ := List.forall_mem_cons.mp h
    obtain ⟨hs, hl⟩ := ih (settled_addPiece he hne hp) hrest
    exact ⟨hs, hl.trans (label_addPiece e piece)⟩

theorem settled_entry {line : Text} {entry : Entry} (hl : Clean line)
    (hk : ∀ word ∈ keywords, afterKeyword? word line = none) (h : readTask? line = some entry)
    {group : Text} (hne : group ≠ []) (hg : Neat group) (id : Nat) :
    Settled { id, group, label := entry.label, start := entry.start, finish := entry.finish
              status := entry.status } := by
  unfold readTask? at h
  obtain ⟨⟨label, rest⟩, hcut, he⟩ := Option.map_eq_some_iff.mp h
  have hline := eq_append_of_cutUnescaped? hcut
  obtain ⟨hlabel, hrest⟩ := not_mem_of_eq_append hline hl.noReturn
  have hempty : ({ label := unescape (trim label) } : Entry).Settled :=
    ⟨neat_nil, neat_nil, fun _ => rfl, fun _ => ⟨rfl, rfl⟩⟩
  have hpieces : ∀ piece ∈ pieces rest, piece ≠ [] ∧ Neat (unescape piece) :=
    fun piece hp => neat_of_mem_trimmedPieces hrest hp
  obtain ⟨hs, hlab⟩ := settled_addPieces hempty hpieces
  subst he
  dsimp only
  rw [hlab]
  exact {
    group_ne := hne
    group := hg
    label := neat_unescape_trim hlabel
    start := hs.start
    finish := hs.finish
    noComment := fun hp =>
      hl.noComment (prefix_of_unescape not_escapable_percent hl.head hline hp)
    noKeyword := fun word hw =>
      not_opens_unescape (isWord_keywords word hw) hl.head hline (hk word hw)
    start_first := hs.start_first
    noStatus := hs.noStatus }

/-- What lines without carriage returns make of a chart. -/
structure SettledGantt (g : Gantt) : Prop where
  title : Neat g.title
  format_ne : g.dateFormat ≠ []
  format : Format g.dateFormat
  tasks : ∀ t ∈ g.tasks, Settled t

structure Draft.Settled (d : Draft) : Prop where
  chart : SettledGantt d.chart
  group_ne : d.group ≠ []
  group : Neat d.group

theorem neat_defaultGroup : defaultGroup ≠ [] ∧ Neat defaultGroup := by decide

/-- One line keeps a draft settled. -/
theorem settled_readLine {d : Draft} {line : Text} (hd : d.Settled) (hl : Clean line) :
    (d.readLine line).Settled := by
  have hc := hd.chart
  unfold Draft.readLine readLine?
  cases ht : afterKeyword? "title".toList line with
  | some title =>
    exact ⟨⟨neat_of_afterKeyword? ht hl.noReturn, hc.format_ne, hc.format, hc.tasks⟩, hd.group_ne,
      hd.group⟩
  | none =>
    dsimp only
    cases hf : afterKeyword? "dateformat".toList line with
    | some format =>
      dsimp only
      split
      · exact hd
      · next hne =>
        obtain ⟨htrim, hsub⟩ := afterKeyword?_spec hf
        have hformat : Format format := ⟨htrim, fun hm => hl.noFeed (hsub.subset hm)⟩
        exact ⟨⟨hc.title, hne, hformat, hc.tasks⟩, hd.group_ne, hd.group⟩
    | none =>
      dsimp only
      cases hs : afterKeyword? "section".toList line with
      | some name =>
        dsimp only
        split
        · exact ⟨hc, neat_defaultGroup.1, neat_defaultGroup.2⟩
        · next hne =>
          exact ⟨hc, fun he => hne (unescape_eq_nil.mp he), neat_of_afterKeyword? hs hl.noReturn⟩
      | none =>
        dsimp only
        cases hr : readTask? line with
        | none => exact ⟨hc, hd.group_ne, hd.group⟩
        | some entry =>
          have hk : ∀ word ∈ keywords, afterKeyword? word line = none :=
            forall_mem_keywords.mpr ⟨ht, hf, hs⟩
          refine ⟨⟨hc.title, hc.format_ne, hc.format,
            List.forall_mem_append.mpr ⟨hc.tasks, ?_⟩⟩, hd.group_ne, hd.group⟩
          exact List.forall_mem_singleton.mpr (settled_entry hl hk hr hd.group_ne hd.group _)

theorem settled_readLines {lines : List Text} {d : Draft} (hd : d.Settled)
    (hl : ∀ line ∈ lines, Clean line) : (lines.foldl Draft.readLine d).Settled := by
  induction lines generalizing d with
  | nil => exact hd
  | cons line lines ih =>
    obtain ⟨hline, hrest⟩ := List.forall_mem_cons.mp hl
    exact ih (settled_readLine hd hline) hrest

theorem settled_read {lines : List Text} (hl : ∀ line ∈ lines, Clean line) (scope : Scope) :
    SettledGantt (read lines scope).1 := by
  have hformat : ({} : Gantt).dateFormat ≠ [] ∧ Format ({} : Gantt).dateFormat :=
    ⟨by decide, by decide, by decide⟩
  have hd : ({ scope } : Draft).Settled :=
    ⟨⟨neat_nil, hformat.1, hformat.2, fun t ht => nomatch ht⟩, neat_defaultGroup.1,
      neat_defaultGroup.2⟩
  exact (settled_readLines hd hl).chart

/-! ### Writing again -/

theorem taskLines_map {tasks : List Task} {f : Task → Task}
    (h : ∀ t ∈ tasks, groupOf (f t) = groupOf t ∧ taskLine (f t) = taskLine t)
    (current : Option Text) : taskLines current (tasks.map f) = taskLines current tasks := by
  induction tasks generalizing current with
  | nil => rfl
  | cons t tasks ih =>
    obtain ⟨⟨hg, hl⟩, hrest⟩ := List.forall_mem_cons.mp h
    rw [List.map_cons, taskLines, taskLines, hg, hl, ih hrest, ih hrest]

theorem taskLines_anonymous (tasks : List Task) :
    taskLines none (Entity.anonymous tasks) = taskLines none tasks :=
  taskLines_map (f := fun t => Entity.withId t EntityId.missing) (fun _ _ => ⟨rfl, rfl⟩) none

/-- A chart that was read is written as it is when it was read again, if no label is a keyword. -/
theorem write_read {g : Gantt} (h : SettledGantt g)
    (hk : ∀ t ∈ g.tasks, isKeyword t.label = false) (scope : Scope) :
    write (read (writtenLines g) scope).1 = write g := by
  have hall : ∀ t ∈ g.tasks, Readable t ∧ isKeyword (unifyBreaks t.label) = false := by
    intro t ht
    refine ⟨(h.tasks t ht).readable, ?_⟩
    rw [(h.tasks t ht).label.unifyBreaks_eq]
    exact hk t ht
  obtain ⟨htitle, hformat, htasks⟩ := read_writtenLines h.title.tidy_unifyBreaks h.format
    h.format_ne hall scope
  have hsame : g.tasks.map reread = g.tasks :=
    (List.map_congr_left fun t ht => (h.tasks t ht).reread_eq).trans (List.map_id _)
  have hlines : taskLines none (read (writtenLines g) scope).1.tasks = taskLines none g.tasks := by
    rw [← taskLines_anonymous, htasks, taskLines_anonymous, hsame]
  unfold write
  rw [htitle, hformat, h.title.unifyBreaks_eq, hlines]

end DiagramDoc.Dialect.Tasks

namespace DiagramDoc.Diagram

open Dialect

/-- Reading the text of a gantt chart back gives the same chart, up to identifiers, if its lines can
be told apart: line breaks are unified, and a task without a section is in the default one. -/
theorem readText_writeText_gantt {d : Diagram} (hk : d.kind = .gantt)
    (ht : Text.Tidy (Text.unifyBreaks d.gantt.title)) (hne : d.gantt.dateFormat ≠ [])
    (hf : Tasks.Format d.gantt.dateFormat)
    (h : ∀ t ∈ d.gantt.tasks,
      Tasks.Readable t ∧ Tasks.isKeyword (Text.unifyBreaks t.label) = false) :
    ∃ e, readText d.writeText d = .ok e ∧ e.kind = .gantt ∧
      e.gantt.title = Text.unifyBreaks d.gantt.title ∧
      e.gantt.dateFormat = d.gantt.dateFormat ∧
      Entity.anonymous e.gantt.tasks = Entity.anonymous (d.gantt.tasks.map Tasks.reread) := by
  have htext : d.writeText = Tasks.write d.gantt := by
    unfold writeText
    rw [hk]
  have hheader : Grammar.ofHeader "gantt".toList = .headed .gantt := by decide
  have hlines := Tasks.contentLines_write ht hf fun t hm => (h t hm).1
  obtain ⟨counter, hread⟩ := readText_headed hlines hheader d
  rw [← htext] at hread
  exact ⟨_, hread, rfl, Tasks.read_writtenLines ht hf hne h _⟩

/-- Fields full of separators, a section that is left and met again, dates that are status words. -/
def bristling : Diagram where
  kind := .gantt
  gantt :=
    { title := "title: \\n\r\n".toList
      dateFormat := "section\r:,".toList
      tasks :=
        [{ id := 1, group := [], label := "titled: %% \\".toList, start := "done".toList
           finish := "a,b\\".toList, status := some .critical },
         { id := 1, group := "General".toList, label := [], start := [], finish := [] },
         { id := 0, group := "a\r\nb".toList, label := "sec tion:".toList
           start := "done, active".toList, finish := "crit\n".toList },
         { id := 3, group := [], label := "section\n".toList, start := ":".toList
           finish := [], status := some .done }] }

theorem readText_writeText_bristling :
    ∃ e, readText bristling.writeText bristling = .ok e ∧ e.kind = .gantt ∧
      e.gantt.title = Text.unifyBreaks bristling.gantt.title ∧
      e.gantt.dateFormat = bristling.gantt.dateFormat ∧
      Entity.anonymous e.gantt.tasks =
        Entity.anonymous (bristling.gantt.tasks.map Tasks.reread) :=
  readText_writeText_gantt rfl (by decide) (by decide) (by decide) (by decide)

end DiagramDoc.Diagram
