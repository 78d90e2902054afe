import DiagramDoc.Edit.Basic
import DiagramDoc.Edit.Changes

/-!
# Applying edits

A batch of edits is applied in order, and as a whole: one refused edit refuses the batch.
-/

namespace DiagramDoc

structure Edited where
  diagram : Diagram
  changes : Changes := {}
deriving DecidableEq

namespace Edited

def add (e : Edited) (insert : Nat → Diagram → Diagram) : Edited where
  diagram := insert e.diagram.allocate.1 e.diagram.allocate.2
  changes := e.changes.recordAdded e.diagram.allocate.1

/-- Puts the outcome of a change in place, if the entity was there. -/
def update (e : Edited) (sort : EntitySort) (id : Nat) (outcome : Option Diagram) :
    Except EditError Edited :=
  match outcome with
  | some diagram => .ok { diagram, changes := e.changes.recordUpdated id }
  | none => .error (.notFound sort id)

/-- Puts the outcome of a removal in place, with the connections that went along. -/
def remove (e : Edited) (sort : EntitySort) (id : Nat) (outcome : Option (Diagram × List Nat)) :
    Except EditError Edited :=
  match outcome with
  | some (diagram, others) =>
    .ok { diagram, changes := (others.foldl Changes.recordRemoved e.changes).recordRemoved id }
  | none => .error (.notFound sort id)

end Edited

namespace Flowchart

/-- An edge joins two different nodes that exist. -/
def checkEnds (f : Flowchart) (source target : Nat) : Except EditError Unit :=
  if (f.node? source).isNone then .error (.notFound .node source)
  else if (f.node? target).isNone then .error (.notFound .node target)
  else if source = target then .error (.selfLoop .edge source)
  else .ok ()

end Flowchart

namespace Sequence

/-- A message goes between two different participants that exist. -/
def checkEnds (s : Sequence) (sender receiver : Nat) : Except EditError Unit :=
  if (s.participant? sender).isNone then .error (.notFound .participant sender)
  else if (s.participant? receiver).isNone then .error (.notFound .participant receiver)
  else if sender = receiver then .error (.selfLoop .message sender)
  else .ok ()

end Sequence

namespace Diagram

def withNodes (d : Diagram) (nodes : List Node) : Diagram :=
  { d with flowchart := { d.flowchart with nodes } }

def withEdges (d : Diagram) (edges : List Edge) : Diagram :=
  { d with flowchart := { d.flowchart with edges } }

def withParticipants (d : Diagram) (participants : List Participant) : Diagram :=
  { d with sequence := { d.sequence with participants } }

def withMessages (d : Diagram) (messages : List Message) : Diagram :=
  { d with sequence := { d.sequence with messages } }

def withSlices (d : Diagram) (slices : List Slice) : Diagram :=
  { d with pie := { d.pie with slices } }

def withTasks (d : Diagram) (tasks : List Task) : Diagram :=
  { d with gantt := { d.gantt with tasks } }

def withSteps (d : Diagram) (steps : List Step) : Diagram :=
  { d with journey := { d.journey with steps } }

def numbered (name : Text) (id : Nat) : Text := name ++ ' ' :: EntityId.toText id

end Diagram

namespace Edited
open Diagram

def removeNode (e : Edited) (id : Nat) : Except EditError Edited :=
  e.remove .node id <| (e.diagram.flowchart.removeNode? id).map fun (chart, edges) =>
    ({ e.diagram with flowchart := chart }, edges)

def removeNodes (e : Edited) : List Nat → Except EditError Edited
  | [] => .ok e
  | id :: ids => do (← e.removeNode id).removeNodes ids

def applyFlowchart (e : Edited) : FlowchartEdit → Except EditError Edited
  | .addNode label shape x y =>
    .ok <| e.add fun id d =>
      d.withNodes (d.flowchart.nodes ++
        [{ id, label := label.getD (numbered Node.defaultLabel id), shape, x, y }])
  | .updateNode id patch =>
    e.update .node id <|
      (Entity.update? patch.apply id e.diagram.flowchart.nodes).map e.diagram.withNodes
  | .moveNode id x y =>
    e.update .node id <|
      (Entity.update? (fun node : Node => { node with x, y }) id e.diagram.flowchart.nodes).map
        e.diagram.withNodes
  | .removeNodes ids => e.removeNodes ids
  | .addEdge source target label arrow => do
    e.diagram.flowchart.checkEnds source target
    .ok <| e.add fun id d =>
      d.withEdges (d.flowchart.edges ++ [{ id, source, target, label, arrow }])
  | .updateEdge id patch =>
    match e.diagram.flowchart.edge? id with
    | none => .error (.notFound .edge id)
    | some edge => do
      if patch.source.isSome ∨ patch.target.isSome then
        e.diagram.flowchart.checkEnds (patch.apply edge).source (patch.apply edge).target
      e.update .edge id <|
        (Entity.update? patch.apply id e.diagram.flowchart.edges).map e.diagram.withEdges
  | .removeEdge id =>
    e.remove .edge id <|
      (Entity.remove? id e.diagram.flowchart.edges).map fun edges => (e.diagram.withEdges edges, [])

def removeParticipant (e : Edited) (id : Nat) : Except EditError Edited :=
  e.remove .participant id <|
    (e.diagram.sequence.removeParticipant? id).map fun (chart, messages) =>
      ({ e.diagram with sequence := chart }, messages)

def applySequence (e : Edited) : SequenceEdit → Except EditError Edited
  | .addParticipant name =>
    .ok <| e.add fun id d =>
      d.withParticipants (d.sequence.participants ++
        [⟨id, name.getD (numbered Participant.defaultName id)⟩])
  | .renameParticipant id name =>
    e.update .participant id <|
      (Entity.update? (fun p : Participant => { p with name }) id
        e.diagram.sequence.participants).map e.diagram.withParticipants
  | .removeParticipant id => e.removeParticipant id
  | .addMessage sender receiver label line => do
    e.diagram.sequence.checkEnds sender receiver
    .ok <| e.add fun id d =>
      d.withMessages (d.sequence.messages ++ [{ id, sender, receiver, label, line }])
  | .updateMessage id patch =>
    match Entity.find? e.diagram.sequence.messages id with
    | none => .error (.notFound .message id)
    | some message => do
      if patch.sender.isSome ∨ patch.receiver.isSome then
        e.diagram.sequence.checkEnds (patch.apply message).sender (patch.apply message).receiver
      e.update .message id <|
        (Entity.update? patch.apply id e.diagram.sequence.messages).map e.diagram.withMessages
  | .removeMessage id =>
    e.remove .message id <|
      (Entity.remove? id e.diagram.sequence.messages).map fun messages =>
        (e.diagram.withMessages messages, [])

/-- A new slice takes the colour that its place in the chart has in the palette. -/
def applyPie (e : Edited) : PieEdit → Except EditError Edited
  | .setTitle title =>
    .ok { e with diagram := { e.diagram with pie := { e.diagram.pie with title } } }
  | .addSlice label value =>
    .ok <| e.add fun id d =>
      d.withSlices (d.pie.slices ++
        [{ id, label := label.getD (numbered Slice.defaultLabel id), value
           color := Slice.paletteColor d.pie.slices.length }])
  | .updateSlice id patch =>
    e.update .slice id <|
      (Entity.update? patch.apply id e.diagram.pie.slices).map e.diagram.withSlices
  | .removeSlice id =>
    e.remove .slice id <|
      (Entity.remove? id e.diagram.pie.slices).map fun slices => (e.diagram.withSlices slices, [])

def applyGantt (e : Edited) : GanttEdit → Except EditError Edited
  | .setTitle title =>
    .ok { e with diagram := { e.diagram with gantt := { e.diagram.gantt with title } } }
  | .setDateFormat dateFormat =>
    .ok { e with diagram := { e.diagram with gantt := { e.diagram.gantt with dateFormat } } }
  | .addTask group label =>
    .ok <| e.add fun id d =>
      d.withTasks (d.gantt.tasks ++
        [{ id, group := group.getD Task.defaultGroup
           label := label.getD (numbered Task.defaultLabel id) }])
  | .updateTask id patch =>
    e.update .task id <|
      (Entity.update? patch.apply id e.diagram.gantt.tasks).map e.diagram.withTasks
  | .removeTask id =>
    e.remove .task id <|
      (Entity.remove? id e.diagram.gantt.tasks).map fun tasks => (e.diagram.withTasks tasks, [])

def applyJourney (e : Edited) : JourneyEdit → Except EditError Edited
  | .setTitle title =>
    .ok { e with diagram := { e.diagram with journey := { e.diagram.journey with title } } }
  | .addStep group task =>
    .ok <| e.add fun id d =>
      d.withSteps (d.journey.steps ++
        [{ id, group := group.getD Step.defaultGroup
           task := task.getD (numbered Step.defaultTask id) }])
  | .updateStep id patch =>
    e.update .step id <|
      (Entity.update? patch.apply id e.diagram.journey.steps).map e.diagram.withSteps
  | .removeStep id =>
    e.remove .step id <|
      (Entity.remove? id e.diagram.journey.steps).map fun steps => (e.diagram.withSteps steps, [])

def apply (e : Edited) : Edit → Except EditError Edited
  | .flowchart edit => e.applyFlowchart edit
  | .sequence edit => e.applySequence edit
  | .pie edit => e.applyPie edit
  | .gantt edit => e.applyGantt edit
  | .journey edit => e.applyJourney edit
  | .setKind kind => .ok { e with diagram := { e.diagram with kind } }

def applyAll (e : Edited) : List Edit → Except EditError Edited
  | [] => .ok e
  | edit :: edits => do (← e.apply edit).applyAll edits

end Edited

structure BatchOutcome where
  diagram : Diagram
  changes : Changes
  applied : Nat
deriving DecidableEq

def Diagram.applyEdits (d : Diagram) (edits : List Edit) : Except EditError BatchOutcome :=
  (Edited.applyAll { diagram := d } edits).map fun e => ⟨e.diagram, e.changes, edits.length⟩

end DiagramDoc
