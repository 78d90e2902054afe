import DiagramDoc.Diagram.Basic
import DiagramDoc.Number.Numeral
import DiagramDoc.Table.Basic

/-!
# Charts as tables

Each kind of chart has its own columns. The first rows describe the document and its page, then
there is a row for each entity; edges and messages without both their ends are left out.
-/

namespace DiagramDoc

namespace Kind

/-- The column names of the table of a kind; in that of tasks two names stand twice. -/
def columnNames : Kind → List Text
  | .flowchart =>
    ["Id", "Name", "Shape Library", "Page ID", "Contained By", "Line Source", "Line Destination",
     "Source Arrow", "Destination Arrow", "Text Area 1", "Text Area 2",
     "Text Area 3"].map String.toList
  | .sequence =>
    ["Id", "Name", "Shape Library", "Page ID", "Contained By", "Group", "Line Source",
     "Line Destination", "Source Arrow", "Destination Arrow", "Status", "Text Area 1",
     "Text Area 2", "Comments"].map String.toList
  | .pie =>
    ["Id", "Name", "Shape Library", "Page ID", "Contained By", "Group", "Status", "Text Area 1",
     "Text Area 2", "Text Area 3", "Text Area 4", "Comments", "background", "foreground", "max",
     "min", "thickness", "value"].map String.toList
  | .gantt =>
    ["Id", "Name", "Shape Library", "Page ID", "Contained By", "Group", "Visualization", "Status",
     "Text Area 1", "Text Area 2", "Text Area 3", "Text Area 4", "Text Area 5", "Text Area 6",
     "Text Area 7", "Comments", "Assignee", "Description", "displaydue", "End Date", "Estimate",
     "Name", "Start Date", "Status", "T-shirt size", "Title", "value"].map String.toList
  | .journey =>
    ["Id", "Name", "Shape Library", "Page ID", "Contained By", "Group", "Line Source",
     "Line Destination", "Source Arrow", "Destination Arrow", "Status", "Text Area 1",
     "Text Area 2", "Text Area 3", "Text Area 4", "Text Area 5", "Text Area 6",
     "Comments"].map String.toList

end Kind

def TaskStatus.label : Option TaskStatus → Text
  | none => "New".toList
  | some .done => "Done".toList
  | some .active => "In Progress".toList
  | some .critical => "At Risk".toList

namespace Shape

def tableName : Shape → Text
  | .process => "Process".toList
  | .decision => "Decision".toList
  | .terminator => "Terminator".toList

end Shape

namespace Arrow

def sourceEnd : Arrow → Text
  | .both => "Arrow".toList
  | _ => "None".toList

def targetEnd : Arrow → Text
  | .line => "None".toList
  | _ => "Arrow".toList

end Arrow

namespace Table

def heading (kind : Kind) (id name text : Text) (more : List (Column × Text)) : List Text :=
  row kind.columnNames
    ((first "Id", id) :: (first "Name", name) :: (first "Text Area 1", text) :: more)

/-- Rows that count their identifiers up from 3, after those of the document and the page. -/
def rowId (index : Nat) : Text := Digits.ofNat (3 + index)

def titleOr (default title : Text) : Text := if title = [] then default else title

@[simp] theorem titleOr_nil (default : Text) : titleOr default [] = default := rfl

theorem titleOr_of_ne_nil {default title : Text} (h : title ≠ []) : titleOr default title = title :=
  if_neg h

def documentRow (kind : Kind) (title : Text) : List Text :=
  heading kind ['1'] "Document".toList title []

def pageRow (kind : Kind) : List Text := heading kind ['2'] "Page".toList "Page 1".toList []

def ofNode (n : Node) : List Text :=
  row Kind.flowchart.columnNames
    [(first "Id", EntityId.toText n.id), (first "Name", n.shape.tableName),
     (first "Shape Library", "Flowchart Shapes".toList), (first "Page ID", ['1']),
     (first "Text Area 1", n.label)]

def ofEdge (e : Edge) : List Text :=
  row Kind.flowchart.columnNames
    [(first "Id", EntityId.toText e.id), (first "Name", "Line".toList), (first "Page ID", ['1']),
     (first "Line Source", EntityId.toText e.source),
     (first "Line Destination", EntityId.toText e.target),
     (first "Source Arrow", e.arrow.sourceEnd), (first "Destination Arrow", e.arrow.targetEnd),
     (first "Text Area 1", e.label)]

def ofFlowchart (f : Flowchart) : List (List Text) :=
  heading .flowchart ['1'] "Page".toList "Page 1".toList [] ::
    (f.nodes.map ofNode ++ f.connectedEdges.map ofEdge)

def ofParticipant (index : Nat) (p : Participant) : List Text :=
  row Kind.sequence.columnNames
    [(first "Id", rowId index), (first "Name", "Class".toList),
     (first "Shape Library", "UML".toList), (first "Page ID", ['2']),
     (first "Text Area 1", p.name)]

/-- The row identifier of a participant; of several with one identifier the last row counts. -/
def participantRow (s : Sequence) (id : Nat) : Text :=
  match s.participants.zipIdx.reverse.find? fun (p, _) => p.id == id with
  | some (_, index) => rowId index
  | none => []

def ofMessage (s : Sequence) (index : Nat) (m : Message) : List Text :=
  row Kind.sequence.columnNames
    [(first "Id", rowId (s.participants.length + index)), (first "Name", "Line".toList),
     (first "Page ID", ['2']), (first "Line Source", participantRow s m.sender),
     (first "Line Destination", participantRow s m.receiver),
     (first "Source Arrow", "None".toList), (first "Destination Arrow", "Arrow".toList),
     (first "Text Area 1", m.label)]

def ofSequence (s : Sequence) : List (List Text) :=
  heading .sequence ['1'] "Document".toList "Sequence diagram".toList
      [(first "Status", "Draft".toList)] ::
    pageRow .sequence ::
      (s.participants.mapIdx ofParticipant ++ s.connectedMessages.mapIdx (ofMessage s))

/-- The share of a value in hundredths, a half rounded up. Without a total it counts as it is. -/
def percentage (value total : Number) : Number :=
  let total := if total.isZero ∨ total = .undefined then 1 else total
  (value / total * 100 + 1 / 2).floor

def ofSlice (total : Number) (index : Nat) (s : Slice) : List Text :=
  row Kind.pie.columnNames
    [(first "Id", rowId index), (first "Name", "Progress Bar".toList),
     (first "Shape Library", "Dynamic Shapes".toList), (first "Page ID", ['2']),
     (first "Text Area 1", s.label), (first "background", "#00000000".toList),
     (first "foreground", titleOr Slice.defaultColor s.color), (first "max", "100".toList),
     (first "min", ['0']), (first "thickness", "100".toList),
     (first "value", (percentage s.value total).toText)]

def ofPie (p : Pie) : List (List Text) :=
  documentRow .pie (titleOr "Pie chart".toList p.title) :: pageRow .pie ::
    p.slices.mapIdx (ofSlice p.total)

def ofTask (index : Nat) (t : Task) : List Text :=
  row Kind.gantt.columnNames
    [(first "Id", rowId index), (first "Name", "LucidCardBlock".toList), (first "Page ID", ['2']),
     (first "Text Area 1", t.group), (first "Title", t.label), (first "Start Date", t.start),
     (first "End Date", t.finish), (first "Status", TaskStatus.label t.status),
     (second "Status", TaskStatus.label t.status), (second "Name", t.label)]

def ofGantt (g : Gantt) : List (List Text) :=
  documentRow .gantt (titleOr "Gantt chart".toList g.title) :: pageRow .gantt ::
    g.tasks.mapIdx ofTask

def ofStep (index : Nat) (s : Step) : List Text :=
  row Kind.journey.columnNames
    [(first "Id", rowId index), (first "Name", "Process".toList),
     (first "Shape Library", "Flowchart Shapes/Containers".toList), (first "Page ID", ['2']),
     (first "Text Area 1", s.task), (first "Text Area 2", "Stage: ".toList ++ s.group),
     (first "Text Area 3", "Score: ".toList ++ s.score.toText),
     (first "Text Area 4", Text.join [',', ' '] s.personas)]

def ofJourney (j : Journey) : List (List Text) :=
  documentRow .journey (titleOr "User journey".toList j.title) :: pageRow .journey ::
    j.steps.mapIdx ofStep

end Table

namespace Diagram

def dataRows (d : Diagram) : List (List Text) :=
  match d.kind with
  | .flowchart => Table.ofFlowchart d.flowchart
  | .sequence => Table.ofSequence d.sequence
  | .pie => Table.ofPie d.pie
  | .gantt => Table.ofGantt d.gantt
  | .journey => Table.ofJourney d.journey

def toTable (d : Diagram) : List (List Text) := d.kind.columnNames :: d.dataRows

def writeTable (d : Diagram) : Text := Table.write d.toTable

end Diagram
end DiagramDoc
