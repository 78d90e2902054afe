/-!
# Text

Text is a list of characters. This file holds blanks, trimming, lines, cutting and joining, and
comparison up to ASCII case; everything that reads or writes text is built from these.
-/

namespace DiagramDoc

abbrev Text := List Char

namespace Text

/-- The characters with the Unicode property `White_Space`. -/
def isBlank (c : Char) : Bool :=
  let n := c.toNat
  (9 ≤ n && n ≤ 13) || n == 0x20 || n == 0x85 || n == 0xA0 || n == 0x1680 ||
  (0x2000 ≤ n && n ≤ 0x200A) || n == 0x2028 || n == 0x2029 || n == 0x202F || n == 0x205F ||
  n == 0x3000

def trimStart (t : Text) : Text := t.dropWhile isBlank

def trimEnd (t : Text) : Text := (t.reverse.dropWhile isBlank).reverse

def trim (t : Text) : Text := trimEnd (trimStart t)

def consHead (c : Char) : List Text → List Text
  | [] => [[c]]
  | piece :: rest => (c :: piece) :: rest

/-- The pieces between the occurrences of a character: always one more than there are of it. -/
def splitOn (sep : Char) (t : Text) : List Text :=
  t.foldr (fun c pieces => if c = sep then [] :: pieces else consHead c pieces) [[]]

@[simp] theorem splitOn_nil (sep : Char) : splitOn sep [] = [[]] := rfl

@[simp] theorem splitOn_cons (sep c : Char) (t : Text) :
    splitOn sep (c :: t) =
      if c = sep then [] :: splitOn sep t else consHead c (splitOn sep t) := rfl

theorem splitOn_ne_nil (sep : Char) (t : Text) : splitOn sep t ≠ [] := by
  cases t with
  | nil => simp
  | cons c r =>
    rw [splitOn_cons]
    split
    · simp
    · cases splitOn sep r <;> simp [consHead]

def join (sep : Text) (pieces : List Text) : Text := sep.intercalate pieces

/-- A line feed ends a line, and so does a carriage return directly before one. -/
def dropReturn (t : Text) : Text :=
  if t.getLast? = some '\r' then t.dropLast else t

/-- Turns the pieces between line feeds into lines: what follows the last line feed is a line only
when it is not empty, and then keeps its last carriage return. -/
def closeLines : List Text → List Text
  | [] => []
  | [last] => if last = [] then [] else [last]
  | piece :: rest => dropReturn piece :: closeLines rest

def lines (t : Text) : List Text := closeLines (splitOn '\n' t)

def stripPrefix? (head t : Text) : Option Text := head.isPrefixOf? t

def stripSuffix? (tail t : Text) : Option Text := tail.isSuffixOf? t

/-- Equality up to the case of the letters `A` to `Z`. -/
def sameIgnoringCase (s t : Text) : Bool := s.map Char.toLower == t.map Char.toLower

/-- The trimmed text after a leading keyword, in any ASCII case. A blank or the end of the text has
to follow the keyword. -/
def afterKeyword? (keyword t : Text) : Option Text :=
  if sameIgnoringCase (t.take keyword.length) keyword then
    match t.drop keyword.length with
    | [] => some []
    | c :: rest => if isBlank c then some (trim rest) else none
  else none

/-- The text before the first blank, and the trimmed rest. -/
def splitWord (t : Text) : Text × Text :=
  (t.takeWhile (!isBlank ·), trim (t.dropWhile (!isBlank ·)))

/-- Trims, then removes one pair of equal quotes around the text. -/
def stripQuotes (t : Text) : Text :=
  let inner := trim t
  if 2 ≤ inner.length ∧ inner.head? = inner.getLast? ∧
      (inner.head? = some '"' ∨ inner.head? = some '\'') then
    inner.tail.dropLast
  else inner

def cutLast? (sep : Char) : Text → Option (Text × Text)
  | [] => none
  | c :: rest =>
    match cutLast? sep rest with
    | some (before, after) => some (c :: before, after)
    | none => if c = sep then some ([], rest) else none

def cutAt? (word : Text) : Text → Option (Text × Text)
  | [] => if word = [] then some ([], []) else none
  | c :: rest =>
    match stripPrefix? word (c :: rest) with
    | some after => some ([], after)
    | none => (cutAt? word rest).map fun (before, after) => (c :: before, after)

/-- Line breaks written as one line feed. -/
def unifyBreaks : Text → Text
  | [] => []
  | c :: rest =>
    if c = '\r' ∧ rest.head? = some '\n' then unifyBreaks rest else c :: unifyBreaks rest

end Text
end DiagramDoc
