import DiagramDoc.Diagram.Id
import DiagramDoc.Number.Basic

/-!
# User journeys

A title and steps; a step has a score and the personas that take it, in order.
-/

namespace DiagramDoc

structure Step where
  id : Nat
  group : Text
  task : Text
  score : Number := 3
  personas : List Text := ["User".toList]
deriving DecidableEq

namespace Step

def defaultGroup : Text := "Stage".toList

def defaultTask : Text := "Step".toList

def defaultScore : Number := 3

instance : Entity Step := ⟨Step.id, fun step id => { step with id }⟩

end Step

structure Journey where
  title : Text := []
  steps : List Step := []
deriving DecidableEq

end DiagramDoc
