import DiagramDoc.Text.Basic

/-!
# Escaped fields

A field of a line is written with a backslash before each backslash, double quote, bar and separator
of its line, and with `\n` for a line break. Reading undoes this, and looks for separators only
where no backslash stands before them.
-/

namespace DiagramDoc.Text

/-- Writes a field of a line that is cut at `separators`. -/
def escapeFor (separators : List Char) : Text → Text
  | [] => []
  | c :: rest =>
    if c = '\\' ∨ c = '"' ∨ c = '|' then '\\' :: c :: escapeFor separators rest
    else if c = '\n' then '\\' :: 'n' :: escapeFor separators rest
    else if c = '\r' ∧ rest.head? = some '\n' then escapeFor separators rest
    else if c ∈ separators then '\\' :: c :: escapeFor separators rest
    else c :: escapeFor separators rest

def escape (t : Text) : Text := escapeFor [] t

/-- The character that a backslash and `c` stand for. -/
def escapeMeaning? (c : Char) : Option Char :=
  if c = '\\' ∨ c = '"' ∨ c = '|' ∨ c = ':' ∨ c = ',' then some c
  else if c = 'n' then some '\n'
  else none

/-- Reads a field; a backslash that begins no known escape stands for itself. -/
def unescape : Text → Text
  | '\\' :: c :: rest =>
    match escapeMeaning? c with
    | some meaning => meaning :: unescape rest
    | none => '\\' :: c :: unescape rest
  | c :: rest => c :: unescape rest
  | [] => []

/-- Cuts at the first separator that no backslash escapes. -/
def cutUnescaped? (sep : Char) : Text → Option (Text × Text)
  | '\\' :: c :: rest =>
    (cutUnescaped? sep rest).map fun (before, after) => ('\\' :: c :: before, after)
  | c :: rest =>
    if c = sep then some ([], rest)
    else (cutUnescaped? sep rest).map fun (before, after) => (c :: before, after)
  | [] => none

def splitUnescaped (sep : Char) : Text → List Text
  | '\\' :: c :: rest => consHead '\\' (consHead c (splitUnescaped sep rest))
  | c :: rest =>
    if c = sep then [] :: splitUnescaped sep rest else consHead c (splitUnescaped sep rest)
  | [] => [[]]

end DiagramDoc.Text
