import DiagramDoc.Number.Digits

/-!
# Notes

What an operation has to say beside its result: notes with a level, a message and named fields, in
the order in which they were made.
-/

namespace DiagramDoc

inductive NoteLevel where
  | debug
  | info
  | warning
deriving DecidableEq

namespace NoteLevel

def name : NoteLevel → Text
  | .debug => "debug".toList
  | .info => "info".toList
  | .warning => "warn".toList

end NoteLevel

structure Note where
  level : NoteLevel
  message : Text
  fields : List (Text × Text)
deriving DecidableEq

abbrev Log := List Note

end DiagramDoc
