import DiagramDoc.Proofs.Dialect.FlowchartColors
import DiagramDoc.Proofs.Dialect.SequenceRoundTrip
import DiagramDoc.Proofs.Dialect.PieRoundTrip
import DiagramDoc.Proofs.Dialect.GanttRoundTrip
import DiagramDoc.Proofs.Dialect.JourneyRoundTrip

/-!
# Writing a text that was read

Reading settles a chart: what is left of labels, colours and numbers is what the written lines say
exactly. So the text of a diagram that was read is the text of what it reads as. Tasks of a gantt
chart whose labels are keywords are the exception, since the written line of such a task is read as
a line of that keyword.
-/

namespace DiagramDoc.Diagram

open Dialect

/-- The chart that is shown could have been read from lines that hold no carriage return. -/
def Settled (d : Diagram) : Prop :=
  match d.kind with
  | .flowchart => Flow.SettledChart d.flowchart
  | .sequence => Seq.SettledChart d.sequence
  | .pie => Slices.SettledPie d.pie
  | .gantt => Tasks.SettledGantt d.gantt
  | .journey => Steps.SettledJourney d.journey

theorem settled_readText {source : Text} {previous d : Diagram} (hb : ReturnsBreak source)
    (h : readText source previous = .ok d) : d.Settled := by
  obtain ⟨header, rest, hl, rfl⟩ := readText_eq_ok h
  have hclean : ∀ line ∈ header :: rest, Clean line := hl ▸ clean_contentLines hb
  have hrest := (List.forall_mem_cons.mp hclean).2
  unfold Settled chartRead refresh
  generalize scopeFor previous (Grammar.ofHeader header).kind = scope
  cases Grammar.ofHeader header with
  | bare =>
    exact Flow.settled_read (fun line hm => ⟨(hclean line hm).noReturn, (hclean line hm).noFeed⟩) _ _
  | headed kind =>
    cases kind with
    | flowchart =>
      exact Flow.settled_read (fun line hm => ⟨(hrest line hm).noReturn, (hrest line hm).noFeed⟩) _ _
    | sequence => exact Seq.settled_read (fun line hm => (hrest line hm).noReturn) _
    | pie => exact Slices.settled_read (fun line hm => (hclean line hm).noReturn) _
    | gantt => exact Tasks.settled_read hrest _
    | journey => exact Steps.settled_read hrest _

/-! ### Reading the text of a settled chart -/

section Settled

variable {d : Diagram}

theorem reexport_flowchart (hk : d.kind = .flowchart) (hv : d.Valid)
    (hc : d.counter ≤ 0x20000000000000) (h : Flow.SettledChart d.flowchart) :
    ∃ e, readText d.writeText d = .ok e ∧ e.writeText = d.writeText := by
  have htext : d.writeText = Flow.write d.flowchart := by
    unfold writeText
    rw [hk]
  have hheader : Grammar.ofHeader "flowchart TD".toList = .headed .flowchart := by decide
  have hchart : d.reconcile.flowchart = d.flowchart := by rw [hv.reconcile_eq]; rfl
  have hfeed : ∀ n ∈ d.flowchart.nodes,
      '\n' ∉ n.fill ∧ '\n' ∉ n.stroke ∧ '\n' ∉ n.textColor := fun n hn =>
    have hcolors := (h.nodes n hn).2
    ⟨hcolors.fill.noFeed, hcolors.stroke.noFeed, hcolors.textColor.noFeed⟩
  obtain ⟨hnodup, hfree⟩ := hv.nodes_free hc
  obtain ⟨counter, hread⟩ := readText_headed (Flow.contentLines_write hfeed) hheader d
  rw [htext]
  refine ⟨_, hread, ?_⟩
  unfold readChart
  rw [hchart]
  exact Flow.write_read hnodup hfree rfl h

theorem reexport_sequence (hk : d.kind = .sequence) (hv : d.Valid)
    (hc : d.counter ≤ 0x20000000000000) (h : Seq.SettledChart d.sequence) :
    ∃ e, readText d.writeText d = .ok e ∧ e.writeText = d.writeText := by
  have htext : d.writeText = Seq.write d.sequence := by
    unfold writeText
    rw [hk]
  have hheader : Grammar.ofHeader "sequenceDiagram".toList = .headed .sequence := by decide
  obtain ⟨hnodup, hfree⟩ := hv.participants_free hc
  obtain ⟨counter, hread⟩ := readText_headed (Seq.contentLines_write d.sequence) hheader d
  rw [htext]
  exact ⟨_, hread, Seq.write_read hnodup hfree rfl h⟩

theorem reexport_pie (hk : d.kind = .pie) (h : Slices.SettledPie d.pie) :
    ∃ e, readText d.writeText d = .ok e ∧ e.writeText = d.writeText := by
  have htext : d.writeText = Slices.write d.pie := by
    unfold writeText
    rw [hk]
  have hheader : Grammar.ofHeader "pie".toList = .headed .pie := by decide
  have hlines := Slices.contentLines_write h.title.tidy_unifyBreaks
    fun s hs => (h.slices s hs).readable
  obtain ⟨counter, hread⟩ := readText_headed hlines hheader d
  rw [htext]
  exact ⟨_, hread, Slices.write_read h _⟩

theorem reexport_journey (hk : d.kind = .journey) (h : Steps.SettledJourney d.journey) :
    ∃ e, readText d.writeText d = .ok e ∧ e.writeText = d.writeText := by
  have htext : d.writeText = Steps.write d.journey := by
    unfold writeText
    rw [hk]
  have hheader : Grammar.ofHeader "journey".toList = .headed .journey := by decide
  have hlines := Steps.contentLines_write h.title.tidy_unifyBreaks
    fun s hs => (h.steps s hs).readable
  obtain ⟨counter, hread⟩ := readText_headed hlines hheader d
  rw [htext]
  exact ⟨_, hread, Steps.write_read h _⟩

/-- Of the tasks exactly those come back whose labels are no keywords. -/
theorem reexport_gantt (hk : d.kind = .gantt) (h : Tasks.SettledGantt d.gantt) :
    ∃ e, readText d.writeText d = .ok e ∧
      e.gantt.tasks.length = d.gantt.tasks.countP (fun t => !Tasks.isKeyword t.label) ∧
      ((∀ t ∈ d.gantt.tasks, Tasks.isKeyword t.label = false) → e.writeText = d.writeText) := by
  have htext : d.writeText = Tasks.write d.gantt := by
    unfold writeText
    rw [hk]
  have hheader : Grammar.ofHeader "gantt".toList = .headed .gantt := by decide
  have hlines := Tasks.contentLines_write h.title.tidy_unifyBreaks h.format
    fun t ht => (h.tasks t ht).readable
  obtain ⟨counter, hread⟩ := readText_headed hlines hheader d
  rw [htext]
  refine ⟨_, hread, ?_, fun hplain => Tasks.write_read h hplain _⟩
  refine (Tasks.length_read h.format.noFeed hlines _).trans (List.countP_congr fun t ht => ?_)
  simpa using (h.tasks t ht).comesBack_iff

end Settled

/-- The text of a diagram that was read is the text of what it reads as. -/
theorem writeText_readText_writeText {source : Text} {previous d : Diagram}
    (hb : ReturnsBreak source) (h : readText source previous = .ok d) (hk : d.kind ≠ .gantt)
    (hc : d.counter ≤ 0x20000000000000) :
    ∃ e, readText d.writeText d = .ok e ∧ e.writeText = d.writeText := by
  have hs := settled_readText hb h
  obtain ⟨hv, -⟩ := valid_readText h (Nat.lt_of_le_of_lt hc (by decide))
  unfold Settled at hs
  cases hkind : d.kind with
  | flowchart => exact reexport_flowchart hkind hv hc (by rwa [hkind] at hs)
  | sequence => exact reexport_sequence hkind hv hc (by rwa [hkind] at hs)
  | pie => exact reexport_pie hkind (by rwa [hkind] at hs)
  | gantt => exact absurd hkind hk
  | journey => exact reexport_journey hkind (by rwa [hkind] at hs)

/-- Unknown escapes, empty colours, and a name of a number that is taken. -/
def oddFlowchart : Text :=
  "graph LR\r\nN7-->|x\\|y\\q|N2\nstyle N2 fill: red , stroke:,color:#1:x\nB\x7b \\\\\x7d\nB[\"\"]".toList

/-- Handles that name other participants, and labels that end in a backslash or say nothing. -/
def oddSequence : Text :=
  "sequenceDiagram\nparticipant P9 as \"  A \\n\"\nP9->>P7: \\ hi\\\nP7-->>P9:\nparticipant as as".toList

/-- A keyword for a label, and values that are not finite or not said. -/
def oddPie : Text := "pie title  A: \\ one\n\"a\\:b\" : 1e999\nTitled : -0\nx :\ntitle: 5".toList

/-- Empty fields, a score without end, and tasks that begin like keywords. -/
def oddJourney : Text :=
  "journey\nsection \n a : : Me , , you\\,\nTitles : 1e400\nsection Go\\: \nsectional:-0: a\\,b".toList

theorem writeText_readText_writeText_odd :
    (∃ d e, readText oddFlowchart crowded = .ok d ∧ readText d.writeText d = .ok e ∧
      e.writeText = d.writeText) ∧
    (∃ d e, readText oddSequence crowded = .ok d ∧ readText d.writeText d = .ok e ∧
      e.writeText = d.writeText) ∧
    (∃ d e, readText oddPie crowded = .ok d ∧ readText d.writeText d = .ok e ∧
      e.writeText = d.writeText) ∧
    ∃ d e, readText oddJourney crowded = .ok d ∧ readText d.writeText d = .ok e ∧
      e.writeText = d.writeText := by
  have hread : ∀ source ∈ [oddFlowchart, oddSequence, oddPie, oddJourney],
      ∃ d e, readText source crowded = .ok d ∧ readText d.writeText d = .ok e ∧
        e.writeText = d.writeText := by
    intro source hs
    have hb : ReturnsBreak source := by
      revert source
      decide +kernel
    have hp : (readText source crowded).toOption.any
        (fun d => decide (d.kind ≠ .gantt ∧ d.counter ≤ 0x20000000000000)) = true := by
      revert source
      decide +kernel
    obtain ⟨d, hd, ho⟩ := exists_readText hp
    obtain ⟨hk, hc⟩ := of_decide_eq_true ho
    obtain ⟨e, he, hw⟩ := writeText_readText_writeText hb hd hk hc
    exact ⟨d, e, hd, he, hw⟩
  simpa using hread

/-- The text of a gantt chart that was read reads as a chart of as many tasks, those whose labels
are keywords apart, and if there are none of these it is written the same way again. -/
theorem writeText_readText_writeText_gantt {source : Text} {previous d : Diagram}
    (hb : ReturnsBreak source) (h : readText source previous = .ok d) (hk : d.kind = .gantt) :
    ∃ e, readText d.writeText d = .ok e ∧
      e.gantt.tasks.length = d.gantt.tasks.countP (fun t => !Tasks.isKeyword t.label) ∧
      ((∀ t ∈ d.gantt.tasks, Tasks.isKeyword t.label = false) → e.writeText = d.writeText) := by
  have hs := settled_readText hb h
  unfold Settled at hs
  exact reexport_gantt hk (by rwa [hk] at hs)

/-- Empty fields, too many of them, and labels that begin like keywords. -/
def oddGantt : Text :=
  "gantt\nsection \ntitled : done,x, y , z\ndateFormat\n sections\\: : ,b\r\n".toList

/-- A label with a colon right behind it is a task to the reader, also when it is a keyword. -/
def keywordGantt : Text := "gantt\ntitle: 2024-01-01\nDateFormat: crit\nShip: done".toList

theorem writeText_readText_writeText_odd_gantt :
    (∃ d e, readText oddGantt crowded = .ok d ∧ readText d.writeText d = .ok e ∧
      d.gantt.tasks.length = 2 ∧ e.writeText = d.writeText) ∧
    ∃ d e, readText keywordGantt {} = .ok d ∧ readText d.writeText d = .ok e ∧
      d.gantt.tasks.length = 3 ∧ e.gantt.tasks.length = 1 := by
  have hodd : (readText oddGantt crowded).toOption.any (fun d => decide (d.kind = .gantt ∧
      d.gantt.tasks.length = 2 ∧ ∀ t ∈ d.gantt.tasks, Tasks.isKeyword t.label = false)) = true := by
    decide +kernel
  have hkeyword : (readText keywordGantt {}).toOption.any (fun d => decide (d.kind = .gantt ∧
      d.gantt.tasks.length = 3 ∧
        d.gantt.tasks.countP (fun t => !Tasks.isKeyword t.label) = 1)) = true := by
    decide +kernel
  obtain ⟨d, hd, ho⟩ := exists_readText hodd
  obtain ⟨hk, hlength, hplain⟩ := of_decide_eq_true ho
  obtain ⟨d', hd', ho'⟩ := exists_readText hkeyword
  obtain ⟨hk', hlength', hcount⟩ := of_decide_eq_true ho'
  obtain ⟨e, he, -, hw⟩ := writeText_readText_writeText_gantt (by decide +kernel) hd hk
  obtain ⟨e', he', hl, -⟩ := writeText_readText_writeText_gantt (by decide +kernel) hd' hk'
  exact ⟨⟨d, e, hd, he, hlength, hw hplain⟩, d', e', hd', he', hlength', hl.trans hcount⟩

/-- What `title: 2024-01-01` below a gantt header reads as. -/
def titleTask : Diagram where
  kind := .gantt
  counter := 2
  gantt :=
    { tasks := [{ id := 1, group := "General".toList, label := "title".toList,
                  start := "2024-01-01".toList, finish := [] }] }

/-- A task named by a keyword is lost: its line is written with a blank before the colon. -/
theorem not_writeText_readText_writeText_gantt :
    ¬ ∀ source previous d, ReturnsBreak source → readText source previous = .ok d →
      d.kind = .gantt → ∃ e, readText d.writeText d = .ok e ∧
        e.gantt.tasks.length = d.gantt.tasks.length ∧ e.writeText = d.writeText := by
  intro h
  have hread : readText "gantt\ntitle: 2024-01-01".toList {} = .ok titleTask := by decide +kernel
  obtain ⟨e, he, hlength, -⟩ := h _ _ titleTask (by decide) hread rfl
  have hlost : (readText titleTask.writeText titleTask).toOption.any
      (fun e => e.gantt.tasks.isEmpty) = true := by decide +kernel
  rw [he] at hlost
  rw [List.isEmpty_iff.mp hlost] at hlength
  cases hlength

end DiagramDoc.Diagram
