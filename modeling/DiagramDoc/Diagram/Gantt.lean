import DiagramDoc.Diagram.Id

/-!
# Gantt charts

A title, a date format and tasks; a task may have a status.
-/

namespace DiagramDoc

inductive TaskStatus where
  | done
  | active
  | critical
deriving DecidableEq

namespace TaskStatus

def all : List TaskStatus := [.done, .active, .critical]

def name : TaskStatus → Text
  | .done => "done".toList
  | .active => "active".toList
  | .critical => "crit".toList

def ofWord? (word : Text) : Option TaskStatus :=
  all.find? fun s => Text.sameIgnoringCase s.name word

theorem ofWord?_name (s : TaskStatus) : ofWord? s.name = some s := by
  cases s <;> decide

def nameOf : Option TaskStatus → Text
  | none => []
  | some s => s.name

/-- The status that a text names, where the empty text names the unset one. -/
def ofText? (t : Text) : Option (Option TaskStatus) :=
  if t = [] then some none else (ofWord? t).map some

theorem ofText?_nameOf (status : Option TaskStatus) : ofText? (nameOf status) = some status := by
  cases status with
  | none => rfl
  | some s =>
    have hs : s.name ≠ [] := by cases s <;> decide
    rw [nameOf, ofText?, if_neg hs, ofWord?_name]
    rfl

end TaskStatus

structure Task where
  id : Nat
  group : Text
  label : Text
  start : Text := "2024-01-01".toList
  finish : Text := "2024-01-05".toList
  status : Option TaskStatus := none
deriving DecidableEq

namespace Task

def defaultGroup : Text := "Phase".toList

def defaultLabel : Text := "Task".toList

instance : Entity Task := ⟨Task.id, fun task id => { task with id }⟩

end Task

structure Gantt where
  title : Text := []
  dateFormat : Text := "YYYY-MM-DD".toList
  tasks : List Task := []
deriving DecidableEq

end DiagramDoc
