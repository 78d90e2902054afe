import DiagramDoc.Diagram.Basic
import DiagramDoc.Json.Printer

/-!
# Diagrams as JSON

The document of a diagram: the layout version, the kind shown, the counter and the five charts.
Numbers that JSON does not have become null.
-/

namespace DiagramDoc

def layoutVersion : Nat := 2

def Node.toJson (n : Node) : Json :=
  .object
    [("id".toList, .ofNat n.id), ("label".toList, .text n.label), ("x".toList, .ofNumber n.x),
     ("y".toList, .ofNumber n.y), ("width".toList, .ofNumber n.width),
     ("height".toList, .ofNumber n.height), ("shape".toList, .text n.shape.name),
     ("fill".toList, .text n.fill), ("stroke".toList, .text n.stroke),
     ("textColor".toList, .text n.textColor)]

def Edge.toJson (e : Edge) : Json :=
  .object
    [("id".toList, .ofNat e.id), ("from".toList, .ofNat e.source), ("to".toList, .ofNat e.target),
     ("label".toList, .text e.label), ("stroke".toList, .text e.stroke),
     ("arrow".toList, .text e.arrow.name)]

def Participant.toJson (p : Participant) : Json :=
  .object [("id".toList, .ofNat p.id), ("name".toList, .text p.name)]

def Message.toJson (m : Message) : Json :=
  .object
    [("id".toList, .ofNat m.id), ("from".toList, .ofNat m.sender), ("to".toList, .ofNat m.receiver),
     ("label".toList, .text m.label), ("line".toList, .text m.line.name)]

def Slice.toJson (s : Slice) : Json :=
  .object
    [("id".toList, .ofNat s.id), ("label".toList, .text s.label),
     ("value".toList, .ofNumber s.value), ("color".toList, .text s.color)]

def Task.toJson (t : Task) : Json :=
  .object
    [("id".toList, .ofNat t.id), ("section".toList, .text t.group), ("label".toList, .text t.label),
     ("start".toList, .text t.start), ("end".toList, .text t.finish),
     ("status".toList, .text (TaskStatus.nameOf t.status))]

def Step.toJson (s : Step) : Json :=
  .object
    [("id".toList, .ofNat s.id), ("section".toList, .text s.group), ("task".toList, .text s.task),
     ("score".toList, .ofNumber s.score), ("personas".toList, .array (s.personas.map .text))]

def Flowchart.toJson (f : Flowchart) : Json :=
  .object
    [("nodes".toList, .array (f.nodes.map Node.toJson)),
     ("edges".toList, .array (f.edges.map Edge.toJson))]

def Sequence.toJson (s : Sequence) : Json :=
  .object
    [("participants".toList, .array (s.participants.map Participant.toJson)),
     ("messages".toList, .array (s.messages.map Message.toJson))]

def Pie.toJson (p : Pie) : Json :=
  .object
    [("title".toList, .text p.title), ("slices".toList, .array (p.slices.map Slice.toJson))]

def Gantt.toJson (g : Gantt) : Json :=
  .object
    [("title".toList, .text g.title), ("dateFormat".toList, .text g.dateFormat),
     ("tasks".toList, .array (g.tasks.map Task.toJson))]

def Journey.toJson (j : Journey) : Json :=
  .object
    [("title".toList, .text j.title), ("steps".toList, .array (j.steps.map Step.toJson))]

def Diagram.toJson (d : Diagram) : Json :=
  .object
    [("version".toList, .ofNat layoutVersion), ("type".toList, .text d.kind.name),
     ("nextId".toList, .ofNat d.counter), ("flowchart".toList, d.flowchart.toJson),
     ("sequence".toList, d.sequence.toJson), ("pie".toList, d.pie.toJson),
     ("gantt".toList, d.gantt.toJson), ("journey".toList, d.journey.toJson)]

def Diagram.toDocument (d : Diagram) : Text := Json.pretty 0 d.toJson

end DiagramDoc
