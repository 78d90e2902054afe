import DiagramDoc.Diagram.Reconcile
import DiagramDoc.Dialect.Flowchart
import DiagramDoc.Dialect.Sequence
import DiagramDoc.Dialect.Pie
import DiagramDoc.Dialect.Gantt
import DiagramDoc.Dialect.Journey

/-!
# Diagram text

The first line that counts tells the kind of a text. Reading it into a diagram replaces the chart of
that kind and shows it; the other charts stay as they are. The only text that cannot be read is one
in which no line counts.
-/

namespace DiagramDoc

namespace Dialect

/-- How the lines of a text are read; without a header all of them belong to a flowchart. -/
inductive Grammar where
  | headed (kind : Kind)
  | bare
deriving DecidableEq

namespace Grammar

/-- The words that a header begins with, in any ASCII case. -/
def headers : List (Text × Kind) :=
  [("sequencediagram".toList, .sequence), ("pie".toList, .pie), ("gantt".toList, .gantt),
   ("journey".toList, .journey), ("flowchart".toList, .flowchart), ("graph".toList, .flowchart)]

def ofHeader (line : Text) : Grammar :=
  let line := line.map Char.toLower
  match headers.find? fun (word, _) => (Text.stripPrefix? word line).isSome with
  | some (_, kind) => .headed kind
  | none => .bare

def kind : Grammar → Kind
  | .headed kind => kind
  | .bare => .flowchart

end Grammar

inductive ReadError where
  | empty
deriving DecidableEq

def ReadError.message : ReadError → Text
  | .empty => "diagram text has no content".toList

end Dialect

namespace Diagram
open Dialect

/-- Replaces the chart that a grammar describes. A pie chart may have its title in the header. -/
def readChart (d : Diagram) (grammar : Grammar) (header : Text) (rest : List Text) (scope : Scope) :
    Diagram × Scope :=
  match grammar with
  | .headed .flowchart =>
    let (flowchart, scope) := Flow.read rest scope d.flowchart
    ({ d with flowchart }, scope)
  | .bare =>
    let (flowchart, scope) := Flow.read (header :: rest) scope d.flowchart
    ({ d with flowchart }, scope)
  | .headed .sequence =>
    let (sequence, scope) := Seq.read rest scope
    ({ d with sequence }, scope)
  | .headed .pie =>
    let (pie, scope) := Slices.read (header :: rest) scope
    ({ d with pie }, scope)
  | .headed .gantt =>
    let (gantt, scope) := Tasks.read rest scope
    ({ d with gantt }, scope)
  | .headed .journey =>
    let (journey, scope) := Steps.read rest scope
    ({ d with journey }, scope)

/-- Reads a text into a diagram, and tells how its identifiers were handed out. -/
def readTextInScope (text : Text) (previous : Diagram) : Except ReadError (Diagram × Scope) :=
  match contentLines text with
  | [] => .error .empty
  | header :: rest =>
    let grammar := Grammar.ofHeader header
    let (base, log) := previous.reconcileWithLog
    let scope := { Scope.ofDiagram base grammar.kind with log }
    let (d, scope) := base.readChart grammar header rest scope
    .ok ({ d with kind := grammar.kind, counter := scope.next : Diagram }.refresh, scope)

def readTextWithLog (text : Text) (previous : Diagram) : Except ReadError (Diagram × Log) :=
  (readTextInScope text previous).map fun (d, scope) => (d, scope.log)

def readText (text : Text) (previous : Diagram) : Except ReadError Diagram :=
  (readTextInScope text previous).map (·.1)

def writeText (d : Diagram) : Text :=
  match d.kind with
  | .flowchart => Flow.write d.flowchart
  | .sequence => Seq.write d.sequence
  | .pie => Slices.write d.pie
  | .gantt => Tasks.write d.gantt
  | .journey => Steps.write d.journey

end Diagram
end DiagramDoc
