import DiagramDoc.Document.Coerce
import DiagramDoc.Diagram.Reconcile

/-!
# Diagrams from JSON

Every JSON value gives a diagram: each field is read leniently, then the identifiers are reconciled.
An older layout keeps the nodes and edges of the flowchart at the top.
-/

namespace DiagramDoc

open Lenient

def Node.ofJson (v : Json) : Node where
  id := entityId (v.member? "id".toList)
  label := textOr Node.defaultLabel (v.member? "label".toList)
  x := numberOr 0 (v.member? "x".toList)
  y := numberOr 0 (v.member? "y".toList)
  width := numberOr 160 (v.member? "width".toList)
  height := numberOr 64 (v.member? "height".toList)
  shape := choice Shape.ofName? .process (v.member? "shape".toList)
  fill := textOr "#F2F2F2".toList (v.member? "fill".toList)
  stroke := textOr "#333333".toList (v.member? "stroke".toList)
  textColor := textOr "#111111".toList (v.member? "textColor".toList)

def Edge.ofJson (v : Json) : Edge where
  id := entityId (v.member? "id".toList)
  source := entityId (v.member? "from".toList)
  target := entityId (v.member? "to".toList)
  label := text (v.member? "label".toList)
  stroke := textOr "#444444".toList (v.member? "stroke".toList)
  arrow := choice Arrow.ofName? .forward (v.member? "arrow".toList)

def Participant.ofJson (v : Json) : Participant where
  id := entityId (v.member? "id".toList)
  name := textOr Participant.defaultName (v.member? "name".toList)

def Message.ofJson (v : Json) : Message where
  id := entityId (v.member? "id".toList)
  sender := entityId (v.member? "from".toList)
  receiver := entityId (v.member? "to".toList)
  label := textOr [] (v.member? "label".toList)
  line := choice Line.ofName? .solid (v.member? "line".toList)

def Slice.ofJson (v : Json) : Slice where
  id := entityId (v.member? "id".toList)
  label := textOr Slice.defaultLabel (v.member? "label".toList)
  value := numberOr 0 (v.member? "value".toList)
  color := textOr Slice.defaultColor (v.member? "color".toList)

def Task.ofJson (v : Json) : Task where
  id := entityId (v.member? "id".toList)
  group := textOr Task.defaultGroup (v.member? "section".toList)
  label := textOr Task.defaultLabel (v.member? "label".toList)
  start := textOr "2024-01-01".toList (v.member? "start".toList)
  finish := textOr "2024-01-05".toList (v.member? "end".toList)
  status := ((TaskStatus.ofText? (textOr [] (v.member? "status".toList))).getD none)

def Step.ofJson (v : Json) : Step where
  id := entityId (v.member? "id".toList)
  group := textOr Step.defaultGroup (v.member? "section".toList)
  task := textOr Step.defaultTask (v.member? "task".toList)
  score := numberOr Step.defaultScore (v.member? "score".toList)
  personas :=
    match (v.member? "personas".toList).bind Json.array? with
    | some personas => personas.map fun p => textOr [] (some p)
    | none => ["User".toList]

def Flowchart.ofJson (v : Json) : Flowchart where
  nodes := (items (v.member? "nodes".toList)).map Node.ofJson
  edges := (items (v.member? "edges".toList)).map Edge.ofJson

def Sequence.ofJson (v : Json) : Sequence where
  participants := (items (v.member? "participants".toList)).map Participant.ofJson
  messages := (items (v.member? "messages".toList)).map Message.ofJson

def Pie.ofJson (v : Json) : Pie where
  title := textOr [] (v.member? "title".toList)
  slices := (items (v.member? "slices".toList)).map Slice.ofJson

def Gantt.ofJson (v : Json) : Gantt where
  title := textOr [] (v.member? "title".toList)
  dateFormat := textOr "YYYY-MM-DD".toList (v.member? "dateFormat".toList)
  tasks := (items (v.member? "tasks".toList)).map Task.ofJson

def Journey.ofJson (v : Json) : Journey where
  title := textOr [] (v.member? "title".toList)
  steps := (items (v.member? "steps".toList)).map Step.ofJson

namespace Diagram

/-- The member of a document that holds a chart; only an object does. -/
def chart (v : Json) (name : String) : Json :=
  match v.member? name.toList with
  | some (.object members) => .object members
  | _ => .null

def isLegacy (v : Json) : Bool :=
  ((v.member? "flowchart".toList).bind Json.object?).isNone &&
    (((v.member? "nodes".toList).bind Json.array?).isSome ||
      ((v.member? "edges".toList).bind Json.array?).isSome)

def legacyNote (v : Json) : Note where
  level := .info
  message := "migrating legacy top-level flowchart".toList
  fields :=
    [("nodes".toList, Digits.ofNat (items (v.member? "nodes".toList)).length),
     ("edges".toList, Digits.ofNat (items (v.member? "edges".toList)).length)]

/-- Reads a document field by field; its identifiers may be missing or repeated. -/
def coerce (v : Json) : Diagram where
  kind := choice Kind.ofName? .flowchart (v.member? "type".toList)
  counter := max 1 (entityId (v.member? "nextId".toList))
  flowchart := Flowchart.ofJson (if isLegacy v then v else chart v "flowchart")
  sequence := Sequence.ofJson (chart v "sequence")
  pie := Pie.ofJson (chart v "pie")
  gantt := Gantt.ofJson (chart v "gantt")
  journey := Journey.ofJson (chart v "journey")

def ofJsonWithLog (v : Json) : Diagram × Log :=
  match v with
  | .object _ =>
    let (d, log) := (coerce v).reconcileWithLog
    (d, if isLegacy v then legacyNote v :: log else log)
  | _ => ({}, [])

/-- The diagram that a document stands for; anything but an object stands for the empty one. -/
def ofJson (v : Json) : Diagram := (ofJsonWithLog v).1

end Diagram
end DiagramDoc
