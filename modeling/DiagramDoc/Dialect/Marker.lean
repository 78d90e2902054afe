import DiagramDoc.Text.Basic

/-!
# The marker line

A comment line that tells that a text may be read back into its document.
-/

namespace DiagramDoc.Marker

def line : Text := "%% mermaid-magic".toList

def isMarked (t : Text) : Bool :=
  match ((Text.lines t).map Text.trim).find? (· ≠ []) with
  | some first => first == line
  | none => false

/-- Drops the first marker line, wherever it stands. -/
def dropFirst : List Text → List Text
  | [] => []
  | l :: rest => if Text.trim l = line then rest else l :: dropFirst rest

def strip (t : Text) : Text := Text.join ['\n'] (dropFirst (Text.lines t))

def mark (t : Text) : Text := line ++ '\n' :: t

end DiagramDoc.Marker
