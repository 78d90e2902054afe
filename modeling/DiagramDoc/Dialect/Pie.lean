import DiagramDoc.Dialect.Line
import DiagramDoc.Dialect.Scope
import DiagramDoc.Number.Numeral

/-!
# Pie text

A line sets the title or adds a slice. The header may hold the title too.
-/

namespace DiagramDoc.Dialect.Slices

/-- What a line says; a header without a title says nothing new. -/
inductive Line where
  | header
  | title (text : Text)
  | slice (label : Text) (value : Number)
deriving DecidableEq

/-- A slice value: a minus sign at most, then digits and points. -/
def isValue (t : Text) : Bool :=
  let digits := (Text.stripPrefix? ['-'] t).getD t
  digits ≠ [] && digits.all fun c => c.isDigit || c == '.'

/-- A label in quotes ends at the first quote that is not escaped, or at the end of the text. -/
def readLabel (t : Text) : Text :=
  match Text.trim t with
  | '"' :: quoted =>
    match Text.cutUnescaped? '"' quoted with
    | some (label, _) => Text.trim label
    | none => Text.trim quoted
  | label => label

/-- A label, the last colon of the line and a value; a value that is not finite counts as zero. -/
def readSlice? (line : Text) : Option (Text × Number) :=
  match Text.cutLast? ':' line with
  | none => none
  | some (before, after) =>
    let value := Text.trim after
    let label := readLabel before
    if isValue value = false ∨ label = [] then none
    else
      let x := Number.ofText value
      some (Text.unescape label, if x.isFinite then x else 0)

def readLine? (line : Text) : Option Line :=
  match Text.afterKeyword? "pie".toList line with
  | some rest =>
    match Text.afterKeyword? "title".toList rest with
    | some title => some (.title (Text.unescape title))
    | none => some .header
  | none =>
    match Text.afterKeyword? "title".toList line with
    | some title => some (.title (Text.unescape title))
    | none => (readSlice? line).map fun (label, value) => .slice label value

def addLine (state : Pie × Scope) (line : Text) : Pie × Scope :=
  let (pie, scope) := state
  match readLine? line with
  | some .header => state
  | some (.title title) => ({ pie with title }, scope)
  | some (.slice label value) =>
    let (id, scope) := scope.fresh
    ({ pie with slices := pie.slices ++ [{ id, label, value }] }, scope)
  | none => (pie, scope.skip .pie line)

def read (lines : List Text) (scope : Scope) : Pie × Scope := lines.foldl addLine ({}, scope)

def sliceLine (s : Slice) : Text :=
  '"' :: (Text.escape s.label ++ "\": ".toList ++ s.value.toText)

def write (p : Pie) : Text :=
  body "pie".toList (titleLines p.title ++ p.slices.map sliceLine)

end DiagramDoc.Dialect.Slices
