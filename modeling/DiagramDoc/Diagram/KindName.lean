import DiagramDoc.Diagram.Basic
import DiagramDoc.Text.Quoted

/-!
# Reading the name of a kind
-/

namespace DiagramDoc

structure UnknownKind where
  name : Text
deriving DecidableEq

def UnknownKind.message (e : UnknownKind) : Text :=
  "unknown diagram kind: ".toList ++ Text.quoted e.name ++
    " (expected flowchart/sequence/pie/gantt/journey)".toList

def Kind.read (t : Text) : Except UnknownKind Kind :=
  match Kind.ofName? t with
  | some kind => .ok kind
  | none => .error ⟨t⟩

end DiagramDoc
