import DiagramDoc.Dialect.Gantt
import DiagramDoc.Proofs.Dialect.LabelLine

/-!
# The written lines of a gantt chart

A task is written with a blank between its label and the colon, so a label that is a keyword of its
own makes the line of the task a line of this keyword. Such a task is lost when the text is read
back, and so is one whose label begins like another line; all other tasks are found again.
-/

namespace DiagramDoc.Dialect.Tasks

open Text

def dateFormatWord : Text := "dateformat".toList

/-- The words that begin a line of their own, in any ASCII case. -/
def keywords : List Text := [titleWord, dateFormatWord, sectionWord]

def isKeyword (label : Text) : Bool := keywords.any fun word => sameIgnoringCase label word

theorem forall_mem_keywords {p : Text → Prop} :
    (∀ word ∈ keywords, p word) ↔ p titleWord ∧ p dateFormatWord ∧ p sectionWord := by
  simp [keywords]

theorem isWord_keywords : ∀ word ∈ keywords, IsWord word := by decide

/-! ### The written lines -/

/-- What the lines of a task need to be read as this task, if its label is no keyword. -/
structure Readable (t : Task) : Prop where
  group : Tidy (unifyBreaks t.group)
  label : Tidy (unifyBreaks t.label)
  start : Tidy (unifyBreaks t.start)
  finish : Tidy (unifyBreaks t.finish)
  noComment : ¬ ['%', '%'] <+: unifyBreaks t.label
  noKeyword : ∀ word ∈ keywords, ¬ Opens word (unifyBreaks t.label)
  start_first : t.start = [] → t.finish = []
  noStatus : t.status = none →
    TaskStatus.ofWord? t.start = none ∧ TaskStatus.ofWord? t.finish = none

instance (t : Task) : Decidable (Readable t) :=
  decidable_of_iff (Tidy (unifyBreaks t.group) ∧ Tidy (unifyBreaks t.label) ∧
      Tidy (unifyBreaks t.start) ∧ Tidy (unifyBreaks t.finish) ∧
      ¬ ['%', '%'] <+: unifyBreaks t.label ∧
      (∀ word ∈ keywords, ¬ Opens word (unifyBreaks t.label)) ∧
      (t.start = [] → t.finish = []) ∧
      (t.status = none → TaskStatus.ofWord? t.start = none ∧ TaskStatus.ofWord? t.finish = none))
    ⟨fun ⟨hg, hl, hs, hf, hc, hk, hd, hn⟩ => ⟨hg, hl, hs, hf, hc, hk, hd, hn⟩,
      fun ⟨hg, hl, hs, hf, hc, hk, hd, hn⟩ => ⟨hg, hl, hs, hf, hc, hk, hd, hn⟩⟩

/-- What stands before the colon of a task, once its line is trimmed. -/
def lead (label : Text) : Text := if label = [] then [] else escapeFor [':'] label ++ [' ']

/-- What stands behind the comma before the end of a task, once its line is trimmed. -/
def tail (finish : Text) : Text := if finish = [] then [] else ' ' :: escapeFor [','] finish

def dates (t : Task) : Text :=
  ' ' :: (statusText t.status ++ (escapeFor [','] t.start ++ ',' :: tail t.finish))

theorem trimEnd_tail {t : Text} (h : Tidy (unifyBreaks t)) :
    trimEnd (' ' :: escapeFor [','] t) = tail t := by
  unfold tail
  split
  · next ht =>
    rw [ht]
    decide
  · next ht =>
    have hne : escapeFor [','] t ≠ [] := fun he => ht (escapeFor_eq_nil.mp he)
    refine trimEnd_eq_self ?_
    rw [getLast?_cons_of_ne_nil hne]
    exact (trim_eq_self_iff.mp (trim_escapeFor meaning_comma h)).2

theorem trim_taskLine_eq (t : Task) :
    trim (taskLine t) = trimStart (escapeFor [':'] t.label ++ [' ']) ++
      ':' :: trimEnd (' ' :: (statusText t.status ++
        (escapeFor [','] t.start ++ ',' :: ' ' :: escapeFor [','] t.finish))) := by
  rw [← trim_append_cons (c := ':') (by decide)]
  unfold taskLine
  simp

/-- The blank behind a label goes along with it if nothing of the label is left. -/
theorem exists_trimStart_label (label : Text) :
    ∃ u, trimStart (escapeFor [':'] label ++ [' ']) = lead u ∧ unifyBreaks u = unindented label := by
  obtain ⟨u, htrim, hu⟩ := exists_trimStart_escapeFor meaning_colon label
  refine ⟨u, ?_, hu⟩
  unfold trimStart at htrim ⊢
  unfold lead
  rw [List.dropWhile_append, htrim]
  by_cases hnil : u = []
  · rw [hnil]
    rfl
  · have hne : ¬ (escapeFor [':'] u).isEmpty = true := fun he =>
      hnil (escapeFor_eq_nil.mp (List.isEmpty_iff.mp he))
    rw [if_neg hne, if_neg hnil]

theorem trimStart_label {label : Text} (h : Tidy (unifyBreaks label)) :
    trimStart (escapeFor [':'] label ++ [' ']) = lead label := by
  unfold lead
  split
  · next he =>
    rw [he]
    decide
  · next he =>
    cases hb : escapeFor [':'] label with
    | nil => exact absurd (escapeFor_eq_nil.mp hb) he
    | cons b e =>
      have hhead := (trim_eq_self_iff.mp (trim_escapeFor meaning_colon h)).1
      exact trimStart_cons (hhead b (by rw [hb]; rfl)) _

theorem trim_taskLine {t : Task} (hl : Tidy (unifyBreaks t.label))
    (hf : Tidy (unifyBreaks t.finish)) : trim (taskLine t) = lead t.label ++ ':' :: dates t := by
  have hdates : ' ' :: (statusText t.status ++
      (escapeFor [','] t.start ++ ',' :: ' ' :: escapeFor [','] t.finish)) =
      (' ' :: (statusText t.status ++ escapeFor [','] t.start)) ++
        ',' :: ' ' :: escapeFor [','] t.finish := by simp
  rw [trim_taskLine_eq, trimStart_label hl, hdates, trimEnd_append_cons (c := ',') (by decide),
    trimEnd_tail hf]
  unfold dates
  simp

/-- Before its colon the line of a task is its label and a character that no keyword holds. -/
theorem taskLine_field (label rest : Text) :
    ∃ c rest', lead label ++ ':' :: rest = escapeFor [':'] label ++ c :: rest' ∧ c ∈ marks ∧
      c ≠ '%' ∧ (label ≠ [] → c = ' ') := by
  unfold lead
  split
  · next he =>
    subst he
    exact ⟨':', rest, rfl, by decide, by decide, fun hne => absurd rfl hne⟩
  · exact ⟨' ', ':' :: rest, by simp, by decide, by decide, fun _ => rfl⟩

theorem afterKeyword?_taskLine {t : Task} (h : Readable t) {word : Text} (hw : word ∈ keywords)
    (hk : sameIgnoringCase (unifyBreaks t.label) word = false) :
    afterKeyword? word (trim (taskLine t)) = none := by
  rw [trim_taskLine h.label h.finish]
  obtain ⟨c, rest, he, hc, -⟩ := taskLine_field t.label (dates t)
  rw [he]
  exact afterKeyword?_escapeFor_append meaning_colon (isWord_keywords word hw) hc
    (h.noKeyword word hw) fun _ => hk

theorem cutUnescaped?_taskLine (label rest : Text) :
    cutUnescaped? ':' (lead label ++ ':' :: rest) = some (lead label, rest) := by
  unfold lead
  split
  · rfl
  · rw [List.append_assoc, cutUnescaped?_escapeFor_append (.inr (.inr (by decide)))]
    rfl

theorem trim_lead {label : Text} (h : Tidy (unifyBreaks label)) :
    trim (lead label) = escapeFor [':'] label := by
  unfold lead
  split
  · next he =>
    rw [he]
    rfl
  · rw [trim_concat_blank (by decide), trim_escapeFor meaning_colon h]

/-! ### Status and dates -/

theorem pieces_eq (t : Text) : pieces t = trimmedPieces ',' t := rfl

def statusPieces : Option TaskStatus → List Text
  | none => []
  | some status => [status.name]

theorem trimmedPieces_tail {t : Text} (h : Tidy (unifyBreaks t)) :
    trimmedPieces ',' (tail t) = [escapeFor [','] t].filter (· ≠ []) := by
  unfold tail
  split
  · next he =>
    rw [he]
    rfl
  · exact trimmedPieces_field meaning_comma (by decide) h

theorem pieces_dates {t : Task} (h : Readable t) :
    pieces (dates t) = statusPieces t.status ++
      ([escapeFor [','] t.start].filter (· ≠ []) ++ [escapeFor [','] t.finish].filter (· ≠ [])) := by
  have hdates : trimmedPieces ',' (' ' :: (escapeFor [','] t.start ++ ',' :: tail t.finish)) =
      [escapeFor [','] t.start].filter (· ≠ []) ++ [escapeFor [','] t.finish].filter (· ≠ []) := by
    rw [trimmedPieces_field_cons meaning_comma (by decide) (by decide) h.start,
      trimmedPieces_tail h.finish]
  have hname : ∀ s : TaskStatus, escapeFor [','] s.name = s.name ∧ Tidy (unifyBreaks s.name) ∧
      [s.name].filter (· ≠ []) = [s.name] := by
    intro s
    cases s <;> decide
  rw [pieces_eq]
  unfold dates
  cases t.status with
  | none => exact hdates
  | some s =>
    obtain ⟨he, htidy, hkeep⟩ := hname s
    have hline : ' ' :: (statusText (some s) ++ (escapeFor [','] t.start ++ ',' :: tail t.finish)) =
        ' ' :: (escapeFor [','] s.name ++
          ',' :: ' ' :: (escapeFor [','] t.start ++ ',' :: tail t.finish)) := by
      rw [he]
      simp [statusText]
    rw [hline, trimmedPieces_field_cons meaning_comma (by decide) (by decide) htidy, hdates, he,
      hkeep]
    rfl

theorem ofWord?_eq_some_iff {word : Text} {s : TaskStatus} :
    TaskStatus.ofWord? word = some s ↔ sameIgnoringCase s.name word = true := by
  refine find?_name_eq_some_iff (fun s => ?_) (fun s s' h => ?_)
  · cases s <;> decide
  · revert h
    cases s <;> cases s' <;> decide

theorem ofWord?_eq_some {word : Text} {s : TaskStatus} (h : TaskStatus.ofWord? word = some s) :
    IsWord word := by
  have hall : ∀ s : TaskStatus, IsWord s.name := by
    intro s
    cases s <;> decide
  exact (hall s).congr (sameIgnoringCase_symm (ofWord?_eq_some_iff.mp h))

theorem unescape_of_isWord {t : Text} (h : IsWord t) : unescape t = t := by
  have hu : unescape t = t ++ [] :=
    (unescape_eq_append fun c hc => h.not_escapable hc).mpr ⟨[], (List.append_nil t).symm, rfl⟩
  rw [hu, List.append_nil]

/-- No status word comes out of unifying line breaks. -/
theorem ofWord?_unifyBreaks {t : Text} (h : TaskStatus.ofWord? t = none) :
    TaskStatus.ofWord? (unifyBreaks t) = none := by
  refine Option.eq_none_iff_forall_not_mem.mpr fun s hs => ?_
  rw [unifyBreaks_of_feed_not_mem ((ofWord?_eq_some hs).not_mem (by decide)), h] at hs
  cases hs

/-- A status word is not hidden by escaping. -/
theorem ofWord?_of_unescape {t : Text} (h : TaskStatus.ofWord? (unescape t) = none) :
    TaskStatus.ofWord? t = none := by
  refine Option.eq_none_iff_forall_not_mem.mpr fun s hs => ?_
  rw [unescape_of_isWord (ofWord?_eq_some hs), hs] at h
  cases h

/-- A status word does not come out of escapes. -/
theorem ofWord?_unescape {t : Text} (h : TaskStatus.ofWord? t = none) :
    TaskStatus.ofWord? (unescape t) = none := by
  refine Option.eq_none_iff_forall_not_mem.mpr fun s hs => ?_
  have hw := ofWord?_eq_some hs
  obtain ⟨v, hv, hnil⟩ := (unescape_eq_append (t := t) (u := [])
    fun c hc => hw.not_escapable hc).mp (List.append_nil _).symm
  rw [unescape_eq_nil.mp hnil, List.append_nil] at hv
  rw [← hv, h] at hs
  cases hs

section Entry

variable {e : Entry} {piece : Text}

theorem addPiece_status {s : TaskStatus} (hs : e.status = none)
    (hp : TaskStatus.ofWord? piece = some s) : e.addPiece piece = { e with status := some s } := by
  unfold Entry.addPiece
  rw [hs, hp]

theorem addPiece_date (h : e.status = none → TaskStatus.ofWord? piece = none) :
    e.addPiece piece =
      if e.start = [] then { e with start := unescape piece }
      else if e.finish = [] then { e with finish := unescape piece }
      else e := by
  unfold Entry.addPiece
  split
  · next s hs hp =>
    rw [h hs] at hp
    cases hp
  · rfl

end Entry

theorem addPieces_dates {label start finish : Text} {status : Option TaskStatus}
    (hfirst : start = [] → finish = [])
    (hw : status = none → TaskStatus.ofWord? start = none ∧ TaskStatus.ofWord? finish = none) :
    ([escapeFor [','] start].filter (· ≠ []) ++ [escapeFor [','] finish].filter (· ≠ [])).foldl
        Entry.addPiece { label, status } =
      { label, status, start := unifyBreaks start, finish := unifyBreaks finish } := by
  have hu := unescape_escapeFor meaning_comma
  have hne : ∀ t : Text, t ≠ [] → [escapeFor [','] t].filter (· ≠ []) = [escapeFor [','] t] := by
    intro t ht
    have he : escapeFor [','] t ≠ [] := fun he => ht (escapeFor_eq_nil.mp he)
    exact List.filter_cons_of_pos (by simpa using he)
  have hword : ∀ t : Text, (status = none → TaskStatus.ofWord? t = none) →
      status = none → TaskStatus.ofWord? (escapeFor [','] t) = none :=
    fun t ht hn => ofWord?_of_unescape (by rw [hu]; exact ofWord?_unifyBreaks (ht hn))
  by_cases hstart : start = []
  · obtain rfl := hstart
    obtain rfl := hfirst rfl
    rfl
  · have hsne : unifyBreaks start ≠ [] := by
      rw [← hu start]
      exact fun he => hstart (escapeFor_eq_nil.mp (unescape_eq_nil.mp he))
    have hfold : ([escapeFor [','] start].filter (· ≠ [])).foldl Entry.addPiece { label, status } =
        { label, status, start := unifyBreaks start } := by
      rw [hne start hstart, List.foldl_cons, List.foldl_nil,
        addPiece_date (hword start fun hn => (hw hn).1), if_pos rfl, hu]
    rw [List.foldl_append, hfold]
    by_cases hfinish : finish = []
    · subst hfinish
      rfl
    · rw [hne finish hfinish, List.foldl_cons, List.foldl_nil,
        addPiece_date (hword finish fun hn => (hw hn).2), if_neg hsne, if_pos rfl, hu]

theorem addPieces_pieces {t : Task} (h : Readable t) (label : Text) :
    (pieces (dates t)).foldl Entry.addPiece { label } =
      { label, status := t.status, start := unifyBreaks t.start
        finish := unifyBreaks t.finish } := by
  rw [pieces_dates h, List.foldl_append]
  cases hst : t.status with
  | none => exact addPieces_dates h.start_first fun _ => h.noStatus hst
  | some s =>
    have hstatus : (statusPieces (some s)).foldl Entry.addPiece { label } =
        { label, status := some s } := addPiece_status rfl (TaskStatus.ofWord?_name s)
    rw [hstatus]
    exact addPieces_dates h.start_first fun hn => nomatch hn

/-- A task whose label is no keyword is read from its line. -/
theorem readLine?_taskLine {t : Task} (h : Readable t)
    (hk : isKeyword (unifyBreaks t.label) = false) :
    readLine? (trim (taskLine t)) =
      some (.task ⟨unifyBreaks t.label, t.status, unifyBreaks t.start, unifyBreaks t.finish⟩) := by
  have hword : ∀ word ∈ keywords, afterKeyword? word (trim (taskLine t)) = none :=
    fun word hw => afterKeyword?_taskLine h hw (by
      have ha := List.any_eq_false.mp hk word hw
      simpa using ha)
  obtain ⟨htitle, hformat, hsection⟩ := forall_mem_keywords.mp hword
  unfold titleWord at htitle
  unfold dateFormatWord at hformat
  unfold sectionWord at hsection
  unfold readLine? readTask?
  rw [htitle, hformat, hsection, trim_taskLine h.label h.finish, cutUnescaped?_taskLine]
  dsimp only [Option.map_some]
  rw [trim_lead h.label, unescape_escapeFor meaning_colon, addPieces_pieces h]

/-! ### The other lines -/

theorem readLine?_title {t : Text} (h : Tidy (unifyBreaks t)) :
    readLine? ("title ".toList ++ escape t) = some (.title (unifyBreaks t)) := by
  have hk : afterKeyword? "title".toList ("title ".toList ++ escape t) = some (escape t) :=
    afterKeyword?_title h
  unfold readLine?
  rw [hk]
  dsimp only
  rw [unescape_escape]

theorem readLine?_section {t : Text} (hne : t ≠ []) (h : Tidy (unifyBreaks t)) :
    readLine? ("section ".toList ++ escape t) = some (.group (unifyBreaks t)) := by
  have ht : afterKeyword? "title".toList ("section ".toList ++ escape t) = none := rfl
  have hd : afterKeyword? "dateformat".toList ("section ".toList ++ escape t) = none := rfl
  have hs : afterKeyword? "section".toList ("section ".toList ++ escape t) = some (escape t) :=
    afterKeyword?_section h
  have he : escape t ≠ [] := fun he => hne (escapeFor_eq_nil.mp he)
  unfold readLine?
  rw [ht, hd, hs]
  dsimp only
  rw [if_neg he, unescape_escape]

/-- A date format is written as it is. -/
structure Format (format : Text) : Prop where
  trimmed : trim format = format
  noFeed : '\n' ∉ format

instance (format : Text) : Decidable (Format format) :=
  decidable_of_iff (trim format = format ∧ '\n' ∉ format)
    ⟨fun ⟨ht, hn⟩ => ⟨ht, hn⟩, fun ⟨ht, hn⟩ => ⟨ht, hn⟩⟩

theorem readLine?_format {format : Text} (h : Format format) :
    readLine? ("dateFormat ".toList ++ format) = some (.dateFormat format) := by
  have ht : afterKeyword? "title".toList ("dateFormat ".toList ++ format) = none := rfl
  have hsame : sameIgnoringCase "dateFormat".toList "dateformat".toList = true := by decide
  have hd : afterKeyword? "dateformat".toList ("dateFormat ".toList ++ format) =
      some (trim format) := afterKeyword?_append hsame (' ' :: format)
  unfold readLine?
  rw [ht, hd, h.trimmed]

theorem lineFeed_not_mem_formatLines {format : Text} (h : '\n' ∉ format) :
    ∀ line ∈ formatLines format, '\n' ∉ line := by
  unfold formatLines
  split
  · exact fun line hline => absurd hline List.not_mem_nil
  · exact List.forall_mem_singleton.mpr (by simp [h])

theorem written_formatLines {format : Text} (h : Format format) :
    ∀ line ∈ formatLines format, Written line := by
  intro line hline
  have hn := lineFeed_not_mem_formatLines h.noFeed line hline
  unfold formatLines at hline
  split at hline
  · cases hline
  · next hne =>
    obtain rfl := List.mem_singleton.mp hline
    exact ⟨hn, trim_cons_append (b := 'd') (by decide) "ateFormat ".toList hne h.trimmed,
      isContent_cons (by decide) _⟩

theorem tidy_groupOf {t : Task} (h : Readable t) : Tidy (unifyBreaks (groupOf t)) := by
  unfold groupOf
  split
  · decide
  · exact h.group

theorem groupOf_ne_nil (t : Task) : groupOf t ≠ [] := by
  unfold groupOf
  split
  · decide
  · assumption

theorem lineFeed_not_mem_taskLine (t : Task) : '\n' ∉ taskLine t := by
  have he : ∀ seps t, '\n' ∉ escapeFor seps t := fun _ t => lineFeed_not_mem_escapeFor t
  have hs : '\n' ∉ statusText t.status := by
    cases t.status with
    | none => exact List.not_mem_nil
    | some s => cases s <;> decide
  unfold taskLine
  simp [he, hs]

theorem written_taskLine {t : Task} (h : Readable t) :
    '\n' ∉ taskLine t ∧ isContent (trim (taskLine t)) = true := by
  refine ⟨lineFeed_not_mem_taskLine t, ?_⟩
  rw [trim_taskLine h.label h.finish]
  obtain ⟨c, rest, he, -, hc, -⟩ := taskLine_field t.label (dates t)
  rw [he]
  exact isContent_escapeFor_append meaning_colon hc h.noComment

theorem written_taskLines {tasks : List Task} (h : ∀ t ∈ tasks, Readable t)
    (current : Option Text) :
    ∀ line ∈ taskLines current tasks, '\n' ∉ line ∧ isContent (trim line) = true := by
  induction tasks generalizing current with
  | nil => exact fun line hline => absurd hline List.not_mem_nil
  | cons t tasks ih =>
    obtain ⟨ht, hrest⟩ := List.forall_mem_cons.mp h
    rw [taskLines]
    split
    · exact List.forall_mem_cons.mpr ⟨written_taskLine ht, ih hrest _⟩
    · have hw := written_section (tidy_groupOf ht) (groupOf_ne_nil t)
      refine List.forall_mem_cons.mpr ⟨⟨hw.noFeed, ?_⟩,
        List.forall_mem_cons.mpr ⟨written_taskLine ht, ih hrest _⟩⟩
      rw [hw.trimmed]
      exact hw.content

/-- The lines that count in the text of a chart. -/
def writtenLines (g : Gantt) : List Text :=
  (titleLines g.title ++ formatLines g.dateFormat) ++ (taskLines none g.tasks).map trim

theorem contentLines_write {g : Gantt} (ht : Tidy (unifyBreaks g.title))
    (hf : Format g.dateFormat) (h : ∀ t ∈ g.tasks, Readable t) :
    contentLines (write g) = "gantt".toList :: writtenLines g := by
  have hhead : ∀ line ∈ titleLines g.title ++ formatLines g.dateFormat, Written line :=
    List.forall_mem_append.mpr ⟨written_titleLines ht, written_formatLines hf⟩
  have hall : ∀ line ∈ titleLines g.title ++ formatLines g.dateFormat ++ taskLines none g.tasks,
      '\n' ∉ line ∧ isContent (trim line) = true := by
    refine List.forall_mem_append.mpr ⟨fun line hline => ?_, written_taskLines h none⟩
    have hw := hhead line hline
    exact ⟨hw.noFeed, by rw [hw.trimmed]; exact hw.content⟩
  have htrim : (titleLines g.title ++ formatLines g.dateFormat).map trim =
      titleLines g.title ++ formatLines g.dateFormat :=
    (List.map_congr_left fun line hline => (hhead line hline).trimmed).trans (List.map_id _)
  unfold write
  rw [contentLines_written (by decide) (by decide) (by decide) hall, List.map_append, htrim]
  rfl

/-! ### How many tasks are read -/

def isTaskLine (line : Text) : Bool :=
  match readLine? line with
  | some (.task _) => true
  | _ => false

theorem length_readLine (d : Draft) (line : Text) :
    (d.readLine line).chart.tasks.length = d.chart.tasks.length + (isTaskLine line).toNat := by
  unfold Draft.readLine isTaskLine
  split
  · next h => rw [h]; rfl
  · next h => rw [h]; split <;> rfl
  · next h => rw [h]; rfl
  · next h => rw [h]; exact List.length_append
  · next h => rw [h]; rfl

theorem isTaskLine_of_keyword {line word : Text} (hw : word ∈ keywords)
    (h : afterKeyword? word line ≠ none) : isTaskLine line = false := by
  unfold isTaskLine readLine?
  cases ht : afterKeyword? "title".toList line with
  | some title => rfl
  | none =>
    cases hd : afterKeyword? "dateformat".toList line with
    | some format => rfl
    | none =>
      cases hs : afterKeyword? "section".toList line with
      | some name => rfl
      | none =>
        have hall : ∀ word ∈ keywords, afterKeyword? word line = none :=
          forall_mem_keywords.mpr ⟨ht, hd, hs⟩
        exact absurd (hall word hw) h

/-- A line with a colon is the line of a task just if it belongs to no keyword. -/
theorem isTaskLine_iff {line : Text} {cut : Text × Text} (hc : cutUnescaped? ':' line = some cut) :
    isTaskLine line = true ↔ ∀ word ∈ keywords, afterKeyword? word line = none := by
  constructor
  · intro h word hw
    refine Classical.byContradiction fun hk => ?_
    rw [isTaskLine_of_keyword hw hk] at h
    cases h
  · intro h
    obtain ⟨ht, hd, hs⟩ := forall_mem_keywords.mp h
    unfold titleWord at ht
    unfold dateFormatWord at hd
    unfold sectionWord at hs
    unfold isTaskLine readLine? readTask?
    rw [ht, hd, hs, hc]
    rfl

/-- The tasks that come back from their lines. -/
def ComesBack (t : Task) : Prop :=
  ¬ Mistaken keywords t.label ∧ isKeyword (unindented t.label) = false

instance (t : Task) : Decidable (ComesBack t) := inferInstanceAs (Decidable (_ ∧ _))

theorem counts_taskLine (t : Task) :
    (isTaskLine (trim (taskLine t)) && isContent (trim (taskLine t))) = decide (ComesBack t) := by
  obtain ⟨u, hlead, hu⟩ := exists_trimStart_label t.label
  rw [trim_taskLine_eq, hlead]
  generalize trimEnd _ = rest
  have hcut := cutUnescaped?_taskLine u rest
  obtain ⟨c, rest', hfield, hc, -, hne⟩ := taskLine_field u rest
  by_cases hk : isKeyword (unindented t.label) = true
  · -- The label is a keyword, and the blank behind it ends the keyword.
    obtain ⟨word, hw, hsame⟩ := List.any_eq_true.mp hk
    rw [← hu] at hsame
    have hword := (isWord_keywords word hw).congr hsame
    have hfeed : '\n' ∉ unifyBreaks u := hword.not_mem (by decide)
    rw [unifyBreaks_of_feed_not_mem hfeed] at hsame hword
    have hunil : u ≠ [] := by
      rintro rfl
      exact absurd (length_of_sameIgnoringCase hsame) (by revert word; decide)
    have hline : afterKeyword? word (lead u ++ ':' :: rest) ≠ none := by
      rw [hfield, escapeFor_of_isWord meaning_colon hword, hne hunil, afterKeyword?_append hsame]
      exact Option.some_ne_none _
    have hlost : ¬ ComesBack t := fun h => absurd (hk.symm.trans h.2) (by decide)
    rw [isTaskLine_of_keyword hw hline, decide_eq_false hlost]
    rfl
  · have hplain : ∀ word ∈ keywords, isBlank c = true →
        sameIgnoringCase (unifyBreaks u) word = false := by
      intro word hw _
      have ha := List.any_eq_false.mp (eq_false_of_ne_true hk) word hw
      rw [hu]
      simpa using ha
    have hiff := not_mistaken_iff meaning_colon rest' isWord_keywords hc hplain hu
    rw [← hfield, ← isTaskLine_iff hcut] at hiff
    rw [Bool.eq_iff_iff, Bool.and_eq_true, and_comm, hiff, decide_eq_true_iff]
    exact (and_iff_left (eq_false_of_ne_true hk)).symm

/-- Lines of sections are no lines of tasks, so each task is counted by its own line. -/
theorem countP_taskLines (tasks : List Task) (current : Option Text) :
    ((taskLines current tasks).map trim).countP (fun line => isTaskLine line && isContent line) =
      tasks.countP fun t => decide (ComesBack t) := by
  induction tasks generalizing current with
  | nil => rfl
  | cons t tasks ih =>
    have hgroup : isTaskLine (trim ("section ".toList ++ escape (groupOf t))) = false :=
      isTaskLine_of_keyword (by simp [keywords]) (afterKeyword?_trim_section (groupOf t))
    rw [taskLines]
    split
    · rw [List.map_cons, List.countP_cons, ih, counts_taskLine, List.countP_cons]
    · rw [List.map_cons, List.map_cons, List.countP_cons, List.countP_cons, ih, counts_taskLine,
        hgroup, List.countP_cons]
      simp

theorem isTaskLine_formatLines (format : Text) :
    ∀ line ∈ formatLines format, isTaskLine (trim line) = false := by
  have hword : dateFormatWord ∈ keywords := by simp [keywords]
  unfold formatLines
  split
  · exact fun line hline => absurd hline List.not_mem_nil
  · exact List.forall_mem_singleton.mpr (isTaskLine_of_keyword hword (afterKeyword?_trim
      (s := "dateFormat".toList) (by decide) (by decide) (by decide) (b := ' ') (by decide) format))

theorem lineFeed_not_mem_taskLines (tasks : List Task) (current : Option Text) :
    ∀ line ∈ taskLines current tasks, '\n' ∉ line := by
  induction tasks generalizing current with
  | nil => exact fun line hline => absurd hline List.not_mem_nil
  | cons t tasks ih =>
    have hg : '\n' ∉ escape (groupOf t) := lineFeed_not_mem_escapeFor (groupOf t)
    rw [taskLines]
    split
    · exact List.forall_mem_cons.mpr ⟨lineFeed_not_mem_taskLine t, ih _⟩
    · exact List.forall_mem_cons.mpr ⟨by simp [hg],
        List.forall_mem_cons.mpr ⟨lineFeed_not_mem_taskLine t, ih _⟩⟩

/-- Reading the text of a chart finds the tasks that come back, and no others. -/
theorem length_read {g : Gantt} (hf : '\n' ∉ g.dateFormat) {rest : List Text}
    (h : contentLines (write g) = "gantt".toList :: rest) (scope : Scope) :
    (read rest scope).1.tasks.length = g.tasks.countP fun t => decide (ComesBack t) := by
  have hfirst : ∀ line ∈ titleLines g.title ++ formatLines g.dateFormat, '\n' ∉ line :=
    List.forall_mem_append.mpr
      ⟨lineFeed_not_mem_titleLines g.title, lineFeed_not_mem_formatLines hf⟩
  have hall := List.forall_mem_append.mpr ⟨hfirst, lineFeed_not_mem_taskLines g.tasks none⟩
  have hnone : ∀ line ∈ titleLines g.title ++ formatLines g.dateFormat,
      isTaskLine (trim line) = false :=
    List.forall_mem_append.mpr ⟨fun line hline => isTaskLine_of_keyword (by simp [keywords])
      (afterKeyword?_titleLines g.title line hline), isTaskLine_formatLines g.dateFormat⟩
  have hcount := countP_contentLines_body (by decide) (by decide) (by decide) hall hnone h
  unfold read
  rw [count_foldl (fun d : Draft => d.chart.tasks.length) length_readLine, hcount,
    countP_taskLines]
  exact Nat.zero_add _

end DiagramDoc.Dialect.Tasks
