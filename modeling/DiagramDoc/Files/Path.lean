import DiagramDoc.Text.Basic

/-!
# Paths

The parts of a path text. Empty segments and single dots at its end do not count; the first segment
is kept apart, since an empty one means the top and a dot there is written on.
-/

namespace DiagramDoc.Path

def segments (p : Text) : List Text := Text.splitOn '/' p

def isDot (segment : Text) : Bool := segment == ['.']

def isDoubleDot (segment : Text) : Bool := segment == ['.', '.']

def isIdle (segment : Text) : Bool := segment == [] || isDot segment

def dropIdleEnd (segments : List Text) : List Text := (segments.reverse.dropWhile isIdle).reverse

/-- The last name of a path, unless it ends with a double dot or names nothing. -/
def fileName? (p : Text) : Option Text :=
  match segments p with
  | [] => none
  | head :: rest =>
    let name := (dropIdleEnd rest).getLast?.getD head
    if isIdle name || isDoubleDot name then none else some name

/-- The text of a path up to its last name; the empty path and the top have none before them. -/
def parent? (p : Text) : Option Text :=
  match segments p with
  | [] => none
  | head :: rest =>
    match dropIdleEnd rest with
    | [] => if head = [] then none else some []
    | body =>
      match dropIdleEnd body.dropLast with
      | [] => some (if head = [] then ['/'] else head)
      | upper => some (Text.join ['/'] (head :: upper))

/-- A path and the paths above it, as long as they are neither empty nor the top. -/
def ancestorsWithin : Nat → Text → List Text
  | 0, _ => []
  | fuel + 1, p =>
    match parent? p with
    | none => []
    | some parent => if p = [] then [] else p :: ancestorsWithin fuel parent

def ancestors (p : Text) : List Text := ancestorsWithin (p.length + 1) p

def child (parent name : Text) : Text :=
  if parent.getLast? = some '/' then parent ++ name else parent ++ '/' :: name

end DiagramDoc.Path
