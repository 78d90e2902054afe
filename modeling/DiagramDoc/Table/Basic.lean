import DiagramDoc.Text.Basic

/-!
# Tables

A table is a list of rows of cells, the first row naming the columns. In its text, commas stand
between cells and line feeds between rows; a cell that holds a comma, a quote or a line feed is
quoted, with its quotes doubled. Reading takes such a text apart again.
-/

namespace DiagramDoc.Table

def needsQuotes (cell : Text) : Bool := cell.any fun c => c == '"' || c == ',' || c == '\n'

def doubleQuotes (cell : Text) : Text := cell.flatMap fun c => if c = '"' then ['"', '"'] else [c]

def cellText (cell : Text) : Text :=
  if needsQuotes cell then '"' :: (doubleQuotes cell ++ ['"']) else cell

def rowText (row : List Text) : Text := Text.join [','] (row.map cellText)

def write (rows : List (List Text)) : Text := Text.join ['\n'] (rows.map rowText)

/-- A column is a name and how many columns of that name stand before it. -/
abbrev Column := Text × Nat

/-- The columns that names stand for, in order. -/
def columnsAfter (before : List Text) : List Text → List Column
  | [] => []
  | name :: rest => (name, before.count name) :: columnsAfter (name :: before) rest

def columns (names : List Text) : List Column := columnsAfter [] names

def row (names : List Text) (cells : List (Column × Text)) : List Text :=
  (columns names).map fun column => (cells.lookup column).getD []

def first (name : String) : Column := (name.toList, 0)

def second (name : String) : Column := (name.toList, 1)

/-- Where reading stands: before a cell, in a plain one, in quotes, or after a quote in quotes. -/
inductive Mode where
  | start
  | plain
  | quoted
  | closing
deriving DecidableEq

def push (c : Char) : List (List Text) → List (List Text)
  | (cell :: cells) :: rows => ((c :: cell) :: cells) :: rows
  | rows => rows

def openCell : List (List Text) → List (List Text)
  | row :: rows => ([] :: row) :: rows
  | [] => []

def openRow (rows : List (List Text)) : List (List Text) := [[]] :: rows

/-- The rows from a place in a text on, the first cell being the rest of the one at that place. -/
def readFrom? : Mode → Text → Option (List (List Text))
  | .quoted, [] => none
  | _, [] => some [[[]]]
  | .quoted, c :: rest =>
    if c = '"' then readFrom? .closing rest else (readFrom? .quoted rest).map (push c)
  | .start, '"' :: rest => readFrom? .quoted rest
  | .closing, '"' :: rest => (readFrom? .quoted rest).map (push '"')
  | _, ',' :: rest => (readFrom? .start rest).map openCell
  | _, '\n' :: rest => (readFrom? .start rest).map openRow
  | .closing, _ => none
  | _, c :: rest => if c = '"' then none else (readFrom? .plain rest).map (push c)

def read? (t : Text) : Option (List (List Text)) := readFrom? .start t

end DiagramDoc.Table
