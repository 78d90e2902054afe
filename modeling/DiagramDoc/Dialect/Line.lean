import DiagramDoc.Text.Escaped

/-!
# Lines of diagram text

Which lines of a text count, and how the lines of a diagram are put together.
-/

namespace DiagramDoc.Dialect

/-- Whether a trimmed line says something: it is neither empty nor a comment. -/
def isContent (line : Text) : Bool := line ≠ [] && (Text.stripPrefix? ['%', '%'] line).isNone

def contentLines (t : Text) : List Text := ((Text.lines t).map Text.trim).filter isContent

def body (header : Text) (lines : List Text) : Text :=
  Text.join ['\n'] (header :: lines.map fun line => ' ' :: ' ' :: line)

def titleLines (title : Text) : List Text :=
  if title = [] then [] else ["title ".toList ++ Text.escape title]

end DiagramDoc.Dialect
