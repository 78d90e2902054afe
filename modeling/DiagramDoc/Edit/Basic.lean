import DiagramDoc.Diagram.Basic

/-!
# Edits

What can be changed in each chart of a diagram, and why a change may be refused. A patch changes the
fields that it names and leaves the others.
-/

namespace DiagramDoc

structure NodePatch where
  label : Option Text := none
  shape : Option Shape := none
  fill : Option Text := none
  stroke : Option Text := none
  textColor : Option Text := none
  width : Option Number := none
  height : Option Number := none
deriving DecidableEq

def NodePatch.apply (p : NodePatch) (n : Node) : Node :=
  { n with
    label := p.label.getD n.label
    shape := p.shape.getD n.shape
    fill := p.fill.getD n.fill
    stroke := p.stroke.getD n.stroke
    textColor := p.textColor.getD n.textColor
    width := p.width.getD n.width
    height := p.height.getD n.height }

structure EdgePatch where
  source : Option Nat := none
  target : Option Nat := none
  label : Option Text := none
  stroke : Option Text := none
  arrow : Option Arrow := none
deriving DecidableEq

def EdgePatch.apply (p : EdgePatch) (e : Edge) : Edge :=
  { e with
    source := p.source.getD e.source
    target := p.target.getD e.target
    label := p.label.getD e.label
    stroke := p.stroke.getD e.stroke
    arrow := p.arrow.getD e.arrow }

structure MessagePatch where
  sender : Option Nat := none
  receiver : Option Nat := none
  label : Option Text := none
  line : Option Line := none
deriving DecidableEq

def MessagePatch.apply (p : MessagePatch) (m : Message) : Message :=
  { m with
    sender := p.sender.getD m.sender
    receiver := p.receiver.getD m.receiver
    label := p.label.getD m.label
    line := p.line.getD m.line }

structure SlicePatch where
  label : Option Text := none
  value : Option Number := none
  color : Option Text := none
deriving DecidableEq

def SlicePatch.apply (p : SlicePatch) (s : Slice) : Slice :=
  { s with
    label := p.label.getD s.label
    value := p.value.getD s.value
    color := p.color.getD s.color }

/-- A status of `none` is left alone, `some none` is unset. -/
structure TaskPatch where
  group : Option Text := none
  label : Option Text := none
  start : Option Text := none
  finish : Option Text := none
  status : Option (Option TaskStatus) := none
deriving DecidableEq

def TaskPatch.apply (p : TaskPatch) (t : Task) : Task :=
  { t with
    group := p.group.getD t.group
    label := p.label.getD t.label
    start := p.start.getD t.start
    finish := p.finish.getD t.finish
    status := p.status.getD t.status }

structure StepPatch where
  group : Option Text := none
  task : Option Text := none
  score : Option Number := none
  personas : Option (List Text) := none
deriving DecidableEq

def StepPatch.apply (p : StepPatch) (s : Step) : Step :=
  { s with
    group := p.group.getD s.group
    task := p.task.getD s.task
    score := p.score.getD s.score
    personas := p.personas.getD s.personas }

inductive FlowchartEdit where
  | addNode (label : Option Text) (shape : Shape) (x y : Number)
  | updateNode (id : Nat) (patch : NodePatch)
  | moveNode (id : Nat) (x y : Number)
  | removeNodes (ids : List Nat)
  | addEdge (source target : Nat) (label : Text) (arrow : Arrow)
  | updateEdge (id : Nat) (patch : EdgePatch)
  | removeEdge (id : Nat)
deriving DecidableEq

inductive SequenceEdit where
  | addParticipant (name : Option Text)
  | renameParticipant (id : Nat) (name : Text)
  | removeParticipant (id : Nat)
  | addMessage (sender receiver : Nat) (label : Text) (line : Line)
  | updateMessage (id : Nat) (patch : MessagePatch)
  | removeMessage (id : Nat)
deriving DecidableEq

inductive PieEdit where
  | setTitle (title : Text)
  | addSlice (label : Option Text) (value : Number)
  | updateSlice (id : Nat) (patch : SlicePatch)
  | removeSlice (id : Nat)
deriving DecidableEq

inductive GanttEdit where
  | setTitle (title : Text)
  | setDateFormat (format : Text)
  | addTask (group label : Option Text)
  | updateTask (id : Nat) (patch : TaskPatch)
  | removeTask (id : Nat)
deriving DecidableEq

inductive JourneyEdit where
  | setTitle (title : Text)
  | addStep (group task : Option Text)
  | updateStep (id : Nat) (patch : StepPatch)
  | removeStep (id : Nat)
deriving DecidableEq

inductive Edit where
  | flowchart (edit : FlowchartEdit)
  | sequence (edit : SequenceEdit)
  | pie (edit : PieEdit)
  | gantt (edit : GanttEdit)
  | journey (edit : JourneyEdit)
  | setKind (kind : Kind)
deriving DecidableEq

inductive EntitySort where
  | node
  | edge
  | participant
  | message
  | slice
  | task
  | step
deriving DecidableEq

namespace EntitySort

def name : EntitySort → Text
  | .node => "Node".toList
  | .edge => "Edge".toList
  | .participant => "Participant".toList
  | .message => "Message".toList
  | .slice => "Slice".toList
  | .task => "Task".toList
  | .step => "Step".toList

end EntitySort

/-- Why an edit is refused: an entity is not there, or a connection would lead back to its start. -/
inductive EditError where
  | notFound (sort : EntitySort) (id : Nat)
  | selfLoop (sort : EntitySort) (id : Nat)
deriving DecidableEq

namespace EditError

def message : EditError → Text
  | .notFound sort id =>
    "entity not found (".toList ++ sort.name ++ ", id=".toList ++ EntityId.toText id ++ [')']
  | .selfLoop sort id =>
    sort.name ++ " cannot connect ".toList ++ EntityId.toText id ++ " to itself".toList

end EditError
end DiagramDoc
