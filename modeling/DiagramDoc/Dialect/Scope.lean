import DiagramDoc.Diagram.Basic
import DiagramDoc.Log

/-!
# Identifiers while reading

Reading a text hands out identifiers. A name such as `N7` asks for the identifier 7, and gets it
unless an entity of another kind has it or it was handed out before; all other names get fresh
identifiers.
-/

namespace DiagramDoc.Dialect

/-- The next fresh identifier, those of the other kinds, those handed out, the fresh ones among
these, and the notes made. -/
structure Scope where
  next : Nat
  reserved : List Nat
  claimed : List Nat := []
  drawn : List Nat := []
  log : Log := []

namespace Scope

def ofDiagram (d : Diagram) (kind : Kind) : Scope where
  next := d.nextId
  reserved := d.idsExcept kind

def fresh (s : Scope) : Nat × Scope :=
  (s.next,
    { s with
      next := EntityId.successor s.next
      claimed := s.next :: s.claimed
      drawn := s.next :: s.drawn })

def note (s : Scope) (message : Text) (fields : List (Text × Text)) : Scope :=
  { s with log := s.log ++ [{ level := .debug, message, fields }] }

def skip (s : Scope) (kind : Kind) (line : Text) : Scope :=
  s.note ("skipping unrecognized ".toList ++ kind.name ++ " line".toList) [("line".toList, line)]

/-- The identifier that a name of a letter and digits asks for. -/
def literal? (letter : Char) (name : Text) : Option Nat :=
  match name with
  | [] => none
  | c :: digits =>
    if c = letter ∧ digits ≠ [] ∧ digits.all Char.isDigit ∧
        EntityId.InRange (Digits.toNat digits) then
      some (Digits.toNat digits)
    else none

def allot (s : Scope) (letter : Char) (name : Text) : Nat × Scope :=
  match literal? letter name with
  | none => s.fresh
  | some id =>
    if id ∈ s.reserved ∨ id ∈ s.claimed then
      (s.note "literal id already taken, allocating a fresh one".toList
        [("token".toList, name), ("id".toList, EntityId.toText id)]).fresh
    else
      (id,
        { s with
          next := if s.next ≤ id then EntityId.successor id else s.next
          claimed := id :: s.claimed })

end Scope

/-- The identifier of a name among the names met so far, latest first. -/
def lookup? (names : List (Text × Nat)) (name : Text) : Option Nat :=
  (names.find? fun entry => entry.1 == name).map (·.2)

end DiagramDoc.Dialect
