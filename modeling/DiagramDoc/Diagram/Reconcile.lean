import DiagramDoc.Diagram.Basic
import DiagramDoc.Log

/-!
# Reconciling identifiers

Entities are visited kind by kind. One whose identifier is missing or was met before gets a fresh
one; references are left alone, so they keep naming the first owner.
-/

namespace DiagramDoc

/-- The identifiers met so far, the next fresh one, and the notes made. -/
structure Claims where
  met : List Nat := []
  next : Nat
  log : Log := []

namespace Claims

def note (what : String) (old new : Nat) : Note where
  level := .warning
  message := "reassigning entity id".toList
  fields :=
    [("entity".toList, what.toList), ("old_id".toList, EntityId.toText old),
     ("new_id".toList, EntityId.toText new)]

def claim (what : String) (claims : Claims) (id : Nat) : Nat × Claims :=
  if id = EntityId.missing ∨ id ∈ claims.met then
    let fresh := claims.next
    (fresh,
      { met := fresh :: claims.met
        next := EntityId.successor fresh
        log := claims.log ++ [note what id fresh] })
  else (id, { claims with met := id :: claims.met })

def claimAll {α : Type} [Entity α] (what : String) (claims : Claims) : List α → List α × Claims
  | [] => ([], claims)
  | x :: xs =>
    let (id, claims) := claim what claims (Entity.id x)
    let (rest, claims) := claimAll what claims xs
    (Entity.withId x id :: rest, claims)

end Claims

namespace Diagram

def reconcileWithLog (d : Diagram) : Diagram × Log :=
  let claims : Claims := { next := d.nextId }
  let (nodes, claims) := claims.claimAll "node" d.flowchart.nodes
  let (edges, claims) := claims.claimAll "edge" d.flowchart.edges
  let (participants, claims) := claims.claimAll "participant" d.sequence.participants
  let (messages, claims) := claims.claimAll "message" d.sequence.messages
  let (slices, claims) := claims.claimAll "slice" d.pie.slices
  let (tasks, claims) := claims.claimAll "task" d.gantt.tasks
  let (steps, claims) := claims.claimAll "step" d.journey.steps
  let renamed : Diagram :=
    { kind := d.kind
      counter := claims.next
      flowchart := { nodes, edges }
      sequence := { participants, messages }
      pie := { d.pie with slices }
      gantt := { d.gantt with tasks }
      journey := { d.journey with steps } }
  (renamed.refresh, claims.log)

/-- Gives every entity an identifier of its own and moves the counter past all of them. -/
def reconcile (d : Diagram) : Diagram := d.reconcileWithLog.1

end Diagram
end DiagramDoc
