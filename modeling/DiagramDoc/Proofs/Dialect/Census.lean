import DiagramDoc.Proofs.Dialect.FlowchartRoundTrip
import DiagramDoc.Proofs.Dialect.GanttRoundTrip
import DiagramDoc.Proofs.Dialect.JourneyRoundTrip
import DiagramDoc.Proofs.Dialect.PieRoundTrip
import DiagramDoc.Proofs.Dialect.SequenceRoundTrip
import DiagramDoc.Proofs.Document.Normalize

/-!
# How many entities come back

Any diagram that was read from a document has a text that can be read, whatever stands in its
fields and whichever of its charts is shown. Nodes and participants have lines that nothing else in
the text looks like. A slice needs a label, and the line of a task or a step may be taken for a
comment or for the line of a keyword; apart from these, as many entities come back as were written.
-/

namespace DiagramDoc

namespace Dialect

open Text

/-- The header of a written text is its first line, whatever stands in the others. -/
theorem exists_contentLines_body {header : Text} (h : Written header) (lines : List Text) :
    ∃ rest, contentLines (body header lines) = header :: rest := by
  obtain ⟨rest, hs⟩ := splitOn_join_cons h.noFeed (lines.map fun line => ' ' :: ' ' :: line)
  unfold body
  rw [contentLines_eq, hs, List.map_cons, h.trimmed, List.filter_cons_of_pos h.content]
  exact ⟨_, rfl⟩

end Dialect

namespace Diagram

open Dialect Text

/-- The entities of the chart that is shown, those that join others apart. -/
def shownCount (d : Diagram) : Nat :=
  match d.kind with
  | .flowchart => d.flowchart.nodes.length
  | .sequence => d.sequence.participants.length
  | .pie => d.pie.slices.length
  | .gantt => d.gantt.tasks.length
  | .journey => d.journey.steps.length

/-- Those of them whose lines can be told from other lines. -/
def readableCount (d : Diagram) : Nat :=
  match d.kind with
  | .flowchart => d.flowchart.nodes.length
  | .sequence => d.sequence.participants.length
  | .pie => d.pie.slices.countP fun s => decide (unindented s.label ≠ [])
  | .gantt => d.gantt.tasks.countP fun t => decide (¬ Mistaken Tasks.keywords t.label)
  | .journey => d.journey.steps.countP fun s => decide (¬ Mistaken Steps.keywords s.task)

/-- No line feed stands in a field that is written as it is, and no task is named by a keyword. -/
structure LinesWhole (d : Diagram) : Prop where
  colors : d.kind = .flowchart →
    ∀ n ∈ d.flowchart.nodes, '\n' ∉ n.fill ∧ '\n' ∉ n.stroke ∧ '\n' ∉ n.textColor
  format : d.kind = .gantt → '\n' ∉ d.gantt.dateFormat
  tasks : d.kind = .gantt → ∀ t ∈ d.gantt.tasks, Tasks.isKeyword (unindented t.label) = false

instance (d : Diagram) : Decidable d.LinesWhole :=
  decidable_of_iff
    ((d.kind = .flowchart →
        ∀ n ∈ d.flowchart.nodes, '\n' ∉ n.fill ∧ '\n' ∉ n.stroke ∧ '\n' ∉ n.textColor) ∧
      (d.kind = .gantt → '\n' ∉ d.gantt.dateFormat) ∧
      (d.kind = .gantt → ∀ t ∈ d.gantt.tasks, Tasks.isKeyword (unindented t.label) = false))
    ⟨fun ⟨hc, hf, ht⟩ => ⟨hc, hf, ht⟩, fun ⟨hc, hf, ht⟩ => ⟨hc, hf, ht⟩⟩

/-! ### The header -/

def headerOf : Kind → Text
  | .flowchart => "flowchart TD".toList
  | .sequence => "sequenceDiagram".toList
  | .pie => "pie".toList
  | .gantt => "gantt".toList
  | .journey => "journey".toList

theorem written_headerOf (kind : Kind) : Written (headerOf kind) := by
  cases kind <;> exact ⟨by decide, by decide, by decide⟩

theorem ofHeader_headerOf (kind : Kind) : Grammar.ofHeader (headerOf kind) = .headed kind := by
  cases kind <;> decide

theorem writeText_eq_body (d : Diagram) : ∃ lines, d.writeText = body (headerOf d.kind) lines := by
  unfold writeText
  cases d.kind <;> exact ⟨_, rfl⟩

/-! ### Reading the written text -/

/-- All that reading the text of a diagram back relies on. -/
structure Writable (d : Diagram) : Prop where
  distinct : d.entityIds.Nodup
  values : ∀ s ∈ d.pie.slices, s.value.isFinite = true
  scores : ∀ s ∈ d.journey.steps, s.score.isFinite = true

theorem Writable.nodup {d : Diagram} (h : d.Writable) (kind : Kind) : (d.idsOf kind).Nodup :=
  (List.nodup_append.mp ((d.entityIds_perm kind).nodup_iff.mp h.distinct)).1

theorem shownCount_readChart {d : Diagram} (h : d.Writable) (hw : d.LinesWhole) {rest : List Text}
    (hrest : contentLines d.writeText = headerOf d.kind :: rest) (base : Diagram) (scope : Scope)
    (counter : Nat) :
    ({ (base.readChart (.headed d.kind) (headerOf d.kind) rest scope).1 with
        kind := d.kind, counter } : Diagram).shownCount = d.readableCount := by
  unfold writeText at hrest
  unfold readableCount shownCount
  cases hk : d.kind with
  | flowchart =>
    rw [hk] at hrest
    have hlines := Flow.contentLines_write (hw.colors hk)
    obtain rfl := (List.cons.inj (hlines.symm.trans hrest)).2
    exact Flow.length_read (List.nodup_append.mp (h.nodup .flowchart)).1 scope base.flowchart
  | sequence =>
    rw [hk] at hrest
    obtain rfl := (List.cons.inj ((Seq.contentLines_write d.sequence).symm.trans hrest)).2
    exact Seq.length_read (List.nodup_append.mp (h.nodup .sequence)).1 scope
  | pie =>
    rw [hk] at hrest
    exact Slices.length_read h.values hrest scope
  | gantt =>
    rw [hk] at hrest
    refine (Tasks.length_read (hw.format hk) hrest scope).trans
      (List.countP_congr fun t ht => ?_)
    rw [decide_eq_true_iff, decide_eq_true_iff]
    exact and_iff_left (hw.tasks hk t ht)
  | journey =>
    rw [hk] at hrest
    exact Steps.length_read h.scores hrest scope

/-- The text of a diagram is read as a diagram of its kind, in which the entities come back whose
lines can be told from others. -/
theorem Writable.readText_writeText {d : Diagram} (h : d.Writable) :
    ∃ e, readText d.writeText d = .ok e ∧ e.kind = d.kind ∧
      (d.LinesWhole → e.shownCount = d.readableCount) := by
  obtain ⟨lines, htext⟩ := writeText_eq_body d
  obtain ⟨rest, hrest⟩ := exists_contentLines_body (written_headerOf d.kind) lines
  rw [← htext] at hrest
  obtain ⟨counter, hread⟩ := readText_headed hrest (ofHeader_headerOf d.kind) d
  exact ⟨_, hread, rfl, fun hw => shownCount_readChart h hw hrest d.reconcile _ counter⟩

/-- Whatever a document holds, what is read from it can be written. -/
theorem writable_ofJson {v : Json} (h : (coerce v).entityIds.length < 0x8000000000000000)
    (kind : Kind) : ({ ofJson v with kind } : Diagram).Writable := by
  have hs := storable_ofJson v
  obtain ⟨hv, -⟩ := reconcile_spec (settle_lt_largest (entityIds_coerce_le v)
    (counter_coerce_le v) h)
  rw [← ofJson_eq] at hv
  exact ⟨hv.distinct, fun s hm => (hs.slices s hm).finite, fun s hm => (hs.steps s hm).finite⟩

/-- What is read from any document can be written and read again, whichever chart is shown. All its
nodes and participants come back, the slices whose labels are not blank, and the tasks and steps
whose lines do not look like comments or begin with a keyword. -/
theorem readText_writeText_ofJson {v : Json}
    (h : (coerce v).entityIds.length < 0x8000000000000000) (kind : Kind) :
    ∃ e, readText ({ ofJson v with kind } : Diagram).writeText { ofJson v with kind } = .ok e ∧
      e.kind = kind ∧
      (({ ofJson v with kind } : Diagram).LinesWhole →
        e.shownCount = ({ ofJson v with kind } : Diagram).readableCount) :=
  (writable_ofJson h kind).readText_writeText

def labelled (name : String) (labels : List String) : Json :=
  .array (labels.map fun label => .object [(name.toList, .text label.toList)])

/-- Labels that are blank or look like other lines, among labels that do not. -/
def jumbled : Json :=
  .object
    [("nodes".toList, labelled "label" ["%%", " "]),
     ("pie".toList, .object [("slices".toList, labelled "label" ["", " \t", "\n", "%% a", "pie"])]),
     ("gantt".toList, .object
      [("title".toList, .text "  ".toList),
       ("tasks".toList, labelled "label" ["", " %%", "%", "TITLE a", "titled", "\ntitle a"])]),
     ("journey".toList, .object
      [("steps".toList, labelled "task" ["section", " Section b", "\r\n%%", "section:"])])]

def jumbledAs (kind : Kind) : Diagram := { ofJson jumbled with kind }

theorem readText_writeText_jumbled :
    (coerce jumbled).entityIds.length < 0x8000000000000000 ∧
      (∃ e, readText (jumbledAs .flowchart).writeText (jumbledAs .flowchart) = .ok e ∧
        e.kind = .flowchart ∧ e.shownCount = 2) ∧
      (∃ e, readText (jumbledAs .pie).writeText (jumbledAs .pie) = .ok e ∧
        e.kind = .pie ∧ e.shownCount = 3) ∧
      (∃ e, readText (jumbledAs .gantt).writeText (jumbledAs .gantt) = .ok e ∧
        e.kind = .gantt ∧ e.shownCount = 4) ∧
      ∃ e, readText (jumbledAs .journey).writeText (jumbledAs .journey) = .ok e ∧
        e.kind = .journey ∧ e.shownCount = 3 := by
  have hlen : (coerce jumbled).entityIds.length < 0x8000000000000000 := by decide
  have hall : ∀ kind, ∃ e, readText (jumbledAs kind).writeText (jumbledAs kind) = .ok e ∧
      e.kind = kind ∧ e.shownCount = (jumbledAs kind).readableCount := by
    intro kind
    obtain ⟨e, hread, hk, hcount⟩ := readText_writeText_ofJson hlen kind
    exact ⟨e, hread, hk, hcount (by cases kind <;> decide)⟩
  exact ⟨hlen, hall .flowchart, hall .pie, hall .gantt, hall .journey⟩

def unlabelled : Json :=
  .object [("pie".toList, .object [("slices".toList, labelled "label" [""])])]

/-- A slice without a label is lost: nothing stands between the quotes of its line. -/
theorem not_readText_writeText_ofJson :
    ¬ ∀ v kind, ∃ e, readText ({ ofJson v with kind } : Diagram).writeText
        { ofJson v with kind } = .ok e ∧ e.kind = kind ∧
      e.shownCount = ({ ofJson v with kind } : Diagram).shownCount := by
  intro h
  have hlen : (coerce unlabelled).entityIds.length < 0x8000000000000000 := by decide
  have hshown : ({ ofJson unlabelled with kind := .pie } : Diagram).shownCount = 1 := by decide
  have hreadable : ({ ofJson unlabelled with kind := .pie } : Diagram).readableCount = 0 := by
    decide
  obtain ⟨e, hread, -, hcount⟩ := h unlabelled .pie
  obtain ⟨e', hread', -, hcount'⟩ := (writable_ofJson hlen .pie).readText_writeText
  obtain rfl : e = e' := Except.ok.inj (hread.symm.trans hread')
  have hlost := hcount' (by decide)
  rw [hcount, hshown, hreadable] at hlost
  cases hlost

end Diagram
end DiagramDoc
