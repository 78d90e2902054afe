import DiagramDoc.Diagram.Id
import DiagramDoc.Number.Basic

/-!
# Flowcharts

Nodes with a place, a size, a shape and colours, and edges between them. An edge may name a node
that does not exist; it is then kept, and left out of every output.
-/

namespace DiagramDoc

inductive Shape where
  | process
  | decision
  | terminator
deriving DecidableEq, Inhabited

namespace Shape

def all : List Shape := [.process, .decision, .terminator]

def name : Shape → Text
  | .process => "process".toList
  | .decision => "decision".toList
  | .terminator => "terminator".toList

def ofName? (t : Text) : Option Shape := all.find? (fun s => s.name == t)

theorem ofName?_name (s : Shape) : ofName? s.name = some s := by
  cases s <;> decide

end Shape

inductive Arrow where
  | forward
  | line
  | dashed
  | thick
  | both
deriving DecidableEq, Inhabited

namespace Arrow

def all : List Arrow := [.forward, .line, .dashed, .thick, .both]

def name : Arrow → Text
  | .forward => "arrow".toList
  | .line => "none".toList
  | .dashed => "dashed".toList
  | .thick => "thick".toList
  | .both => "double".toList

def ofName? (t : Text) : Option Arrow := all.find? (fun a => a.name == t)

theorem ofName?_name (a : Arrow) : ofName? a.name = some a := by
  cases a <;> decide

end Arrow

structure Node where
  id : Nat
  label : Text
  x : Number := 0
  y : Number := 0
  width : Number := 160
  height : Number := 64
  shape : Shape := .process
  fill : Text := "#F2F2F2".toList
  stroke : Text := "#333333".toList
  textColor : Text := "#111111".toList
deriving DecidableEq

namespace Node

def defaultLabel : Text := "Node".toList

instance : Entity Node := ⟨Node.id, fun node id => { node with id }⟩

end Node

structure Edge where
  id : Nat
  source : Nat
  target : Nat
  label : Text := []
  stroke : Text := "#444444".toList
  arrow : Arrow := .forward
deriving DecidableEq

namespace Edge

instance : Entity Edge := ⟨Edge.id, fun edge id => { edge with id }⟩

def touches (e : Edge) (node : Nat) : Bool := e.source == node || e.target == node

end Edge

structure Flowchart where
  nodes : List Node := []
  edges : List Edge := []
deriving DecidableEq

namespace Flowchart

def node? (f : Flowchart) (id : Nat) : Option Node := Entity.find? f.nodes id

def edge? (f : Flowchart) (id : Nat) : Option Edge := Entity.find? f.edges id

def joins (f : Flowchart) (e : Edge) : Bool :=
  (f.node? e.source).isSome && (f.node? e.target).isSome

def connectedEdges (f : Flowchart) : List Edge := f.edges.filter f.joins

/-- Drops a node together with its edges, and tells which edges these were. -/
def removeNode? (f : Flowchart) (id : Nat) : Option (Flowchart × List Nat) :=
  (Entity.remove? id f.nodes).map fun nodes =>
    ({ nodes, edges := f.edges.filter fun e => !e.touches id },
      Entity.ids (f.edges.filter fun e => e.touches id))

end Flowchart
end DiagramDoc
