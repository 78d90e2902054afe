import DiagramDoc.Dialect.Line
import DiagramDoc.Dialect.Scope

/-!
# Sequence text

A line declares a participant or sends a message. A participant that is only met in messages is
called by its handle.
-/

namespace DiagramDoc.Dialect.Seq

inductive Line where
  | participant (handle : Text) (name : Text)
  | message (sender receiver : Text) (line : DiagramDoc.Line) (label : Text)
deriving DecidableEq

/-- The handle of a participant that is declared by its name alone: the name without its blanks. -/
def handleOf (name : Text) : Text := name.filter (!Text.isBlank ·)

def displayName (t : Text) : Text := Text.unescape (Text.stripQuotes t)

/-- The rest of a declaration: a handle, `as` and a name, or a name alone. -/
def readParticipant? (rest : Text) : Option Line :=
  if rest = [] then none
  else
    let (handle, after) := Text.splitWord rest
    match Text.afterKeyword? "as".toList after with
    | some (c :: name) => some (.participant handle (displayName (c :: name)))
    | _ =>
      let name := displayName rest
      some (.participant (handleOf name) name)

/-- The sender of a message: one word, and a dash at its end when the line is dashed. -/
def readSender? (t : Text) : Option (Text × DiagramDoc.Line) :=
  let (sender, line) :=
    match Text.stripSuffix? ['-'] t with
    | some sender => (sender, .dashed)
    | none => (t, .solid)
  let sender := Text.trimEnd sender
  if sender = [] ∨ sender.any Text.isBlank then none else some (sender, line)

def readReceiver? (t : Text) : Option (Text × Text) :=
  let ends := fun c => Text.isBlank c || c == ':'
  let receiver := t.takeWhile (!ends ·)
  if receiver = [] then none
  else
    match Text.trimStart (t.dropWhile (!ends ·)) with
    | [] => some (receiver, [])
    | ':' :: label => some (receiver, Text.trim label)
    | _ => none

def readMessage? (line : Text) : Option Line := do
  let (before, after) ← Text.cutAt? ['-', '>'] line
  let (sender, kind) ← readSender? before
  let after := (Text.stripPrefix? ['>'] after).getD after
  let (receiver, label) ← readReceiver? (Text.trimStart after)
  some (.message sender receiver kind label)

def readLine? (line : Text) : Option Line :=
  match Text.afterKeyword? "participant".toList line with
  | some rest => readParticipant? rest
  | none => readMessage? line

structure Draft where
  scope : Scope
  names : List (Text × Nat) := []
  participants : List Participant := []
  messages : List Message := []

namespace Draft

def resolve (d : Draft) (handle : Text) : Nat × Bool × Draft :=
  match lookup? d.names handle with
  | some id => (id, false, d)
  | none =>
    let (id, scope) := d.scope.allot 'P' handle
    (id, true, { d with scope, names := (handle, id) :: d.names })

def mention (d : Draft) (handle : Text) : Nat × Draft :=
  let (id, isNew, d) := d.resolve handle
  (id, if isNew then { d with participants := d.participants ++ [⟨id, handle⟩] } else d)

/-- Makes a participant for a new handle, and renames the one of a known handle. -/
def declare (d : Draft) (handle name : Text) : Draft :=
  let (id, isNew, d) := d.resolve handle
  if isNew then { d with participants := d.participants ++ [⟨id, name⟩] }
  else
    match Entity.update? (fun p : Participant => { p with name }) id d.participants with
    | some participants => { d with participants }
    | none => d

def addMessage (d : Draft) (sender receiver : Text) (line : DiagramDoc.Line)
    (label : Text) : Draft :=
  let (sender, d) := d.mention sender
  let (receiver, d) := d.mention receiver
  let (id, scope) := d.scope.fresh
  let message : Message := { id, sender, receiver, label := Text.unescape label, line }
  { d with scope, messages := d.messages ++ [message] }

def readLine (d : Draft) (line : Text) : Draft :=
  match readLine? line with
  | some (.participant handle name) => d.declare handle name
  | some (.message sender receiver kind label) => d.addMessage sender receiver kind label
  | none => { d with scope := d.scope.skip .sequence line }

end Draft

def read (lines : List Text) (scope : Scope) : Sequence × Scope :=
  let draft := lines.foldl Draft.readLine { scope }
  ({ participants := draft.participants, messages := draft.messages }, draft.scope)

def participantName (id : Nat) : Text := 'P' :: EntityId.toText id

def participantLine (p : Participant) : Text :=
  "participant ".toList ++ participantName p.id ++ " as \"".toList ++ Text.escape p.name ++ ['"']

def lineSign : DiagramDoc.Line → Text
  | .solid => ['-', '>', '>']
  | .dashed => ['-', '-', '>', '>']

def messageLine (m : Message) : Text :=
  let label := Text.escape m.label
  participantName m.sender ++ lineSign m.line ++ participantName m.receiver ++
    if label = [] then [] else ':' :: ' ' :: label

def write (s : Sequence) : Text :=
  body "sequenceDiagram".toList
    (s.participants.map participantLine ++ s.connectedMessages.map messageLine)

end DiagramDoc.Dialect.Seq
