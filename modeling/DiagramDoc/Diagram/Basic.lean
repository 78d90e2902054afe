import DiagramDoc.Diagram.Flowchart
import DiagramDoc.Diagram.Sequence
import DiagramDoc.Diagram.Pie
import DiagramDoc.Diagram.Gantt
import DiagramDoc.Diagram.Journey

/-!
# Diagrams

A diagram holds one chart of each of the five kinds, and says which of them is shown. All entities
of all five share one supply of identifiers, and the counter tells where the supply goes on.
-/

namespace DiagramDoc

inductive Kind where
  | flowchart
  | sequence
  | pie
  | gantt
  | journey
deriving DecidableEq, Inhabited

namespace Kind

def all : List Kind := [.flowchart, .sequence, .pie, .gantt, .journey]

def name : Kind → Text
  | .flowchart => "flowchart".toList
  | .sequence => "sequence".toList
  | .pie => "pie".toList
  | .gantt => "gantt".toList
  | .journey => "journey".toList

def ofName? (t : Text) : Option Kind := all.find? (fun k => k.name == t)

theorem ofName?_name (k : Kind) : ofName? k.name = some k := by
  cases k <;> decide

end Kind

structure Diagram where
  kind : Kind := .flowchart
  counter : Nat := 1
  flowchart : Flowchart := {}
  sequence : Sequence := {}
  pie : Pie := {}
  gantt : Gantt := {}
  journey : Journey := {}
deriving DecidableEq

namespace Diagram

def idsOf (d : Diagram) : Kind → List Nat
  | .flowchart => Entity.ids d.flowchart.nodes ++ Entity.ids d.flowchart.edges
  | .sequence => Entity.ids d.sequence.participants ++ Entity.ids d.sequence.messages
  | .pie => Entity.ids d.pie.slices
  | .gantt => Entity.ids d.gantt.tasks
  | .journey => Entity.ids d.journey.steps

def entityIds (d : Diagram) : List Nat := Kind.all.flatMap d.idsOf

def idsExcept (d : Diagram) (kind : Kind) : List Nat :=
  (Kind.all.filter (· ≠ kind)).flatMap d.idsOf

def maxId (d : Diagram) : Nat := d.entityIds.foldl max 0

/-- The first identifier that is free: not below the counter, and above every identifier in use. -/
def nextId (d : Diagram) : Nat := max d.counter (EntityId.successor d.maxId)

def refresh (d : Diagram) : Diagram := { d with counter := d.nextId }

def allocate (d : Diagram) : Nat × Diagram :=
  (d.nextId, { d with counter := EntityId.successor d.nextId })

/-- No identifier is missing or used twice, and the counter is above them all. -/
structure Valid (d : Diagram) : Prop where
  present : ∀ id ∈ d.entityIds, id ≠ EntityId.missing
  distinct : d.entityIds.Nodup
  below : ∀ id ∈ d.entityIds, id < d.counter

def starter : Diagram where
  counter := 112
  flowchart :=
    { nodes :=
        [{ id := 2, label := "Start".toList, x := 180, y := 140, shape := .terminator },
         { id := 3, label := "Process".toList, x := 420, y := 140 }]
      edges := [{ id := 100, source := 2, target := 3 }] }
  sequence :=
    { participants := [⟨4, "User".toList⟩, ⟨5, "System".toList⟩]
      messages := [{ id := 101, sender := 4, receiver := 5, label := "Request".toList }] }
  pie :=
    { title := "Usage".toList
      slices :=
        [{ id := 102, label := "Alpha".toList, value := 40 },
         { id := 103, label := "Beta".toList, value := 60, color := "#34d399".toList }] }
  gantt :=
    { title := "Project Plan".toList
      tasks :=
        [{ id := 104, group := "Design".toList, label := "Wireframes".toList },
         { id := 105, group := "Build".toList, label := "Implementation".toList,
           start := "2024-01-06".toList, finish := "2024-01-14".toList, status := some .active }] }
  journey :=
    { title := "User Journey".toList
      steps :=
        [{ id := 106, group := "Discover".toList, task := "Browse".toList, score := 4 },
         { id := 107, group := "Purchase".toList, task := "Checkout".toList }] }

end Diagram
end DiagramDoc
