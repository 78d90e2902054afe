import DiagramDoc.Dialect.Line
import DiagramDoc.Dialect.Scope

/-!
# Gantt text

A line sets the title or the date format, begins a section, or adds a task to the current section.
After the colon of a task stand its status, its start and its end, in pieces between commas.
-/

namespace DiagramDoc.Dialect.Tasks

def defaultGroup : Text := "General".toList

structure Entry where
  label : Text
  status : Option TaskStatus := none
  start : Text := []
  finish : Text := []
deriving DecidableEq

/-- A status word counts once; the other pieces are the start, then the end. -/
def Entry.addPiece (entry : Entry) (piece : Text) : Entry :=
  match entry.status, TaskStatus.ofWord? piece with
  | none, some status => { entry with status }
  | _, _ =>
    if entry.start = [] then { entry with start := Text.unescape piece }
    else if entry.finish = [] then { entry with finish := Text.unescape piece }
    else entry

def pieces (t : Text) : List Text :=
  ((Text.splitUnescaped ',' t).map Text.trim).filter (· ≠ [])

def readTask? (line : Text) : Option Entry :=
  (Text.cutUnescaped? ':' line).map fun (label, rest) =>
    (pieces rest).foldl Entry.addPiece { label := Text.unescape (Text.trim label) }

inductive Line where
  | title (text : Text)
  | dateFormat (format : Text)
  | group (name : Text)
  | task (entry : Entry)
deriving DecidableEq

def readLine? (line : Text) : Option Line :=
  match Text.afterKeyword? "title".toList line with
  | some title => some (.title (Text.unescape title))
  | none =>
    match Text.afterKeyword? "dateformat".toList line with
    | some format => some (.dateFormat format)
    | none =>
      match Text.afterKeyword? "section".toList line with
      | some name => some (.group (if name = [] then defaultGroup else Text.unescape name))
      | none => (readTask? line).map .task

structure Draft where
  scope : Scope
  group : Text := defaultGroup
  chart : Gantt := {}

def Draft.readLine (d : Draft) (line : Text) : Draft :=
  match readLine? line with
  | some (.title title) => { d with chart := { d.chart with title } }
  | some (.dateFormat format) =>
    if format = [] then d else { d with chart := { d.chart with dateFormat := format } }
  | some (.group group) => { d with group }
  | some (.task entry) =>
    let (id, scope) := d.scope.fresh
    let task : Task :=
      { id, group := d.group, label := entry.label, start := entry.start, finish := entry.finish
        status := entry.status }
    { d with scope, chart := { d.chart with tasks := d.chart.tasks ++ [task] } }
  | none => { d with scope := d.scope.skip .gantt line }

def read (lines : List Text) (scope : Scope) : Gantt × Scope :=
  let draft := lines.foldl Draft.readLine { scope }
  (draft.chart, draft.scope)

def statusText : Option TaskStatus → Text
  | none => []
  | some status => status.name ++ [',', ' ']

def taskLine (t : Task) : Text :=
  Text.escapeFor [':'] t.label ++ " : ".toList ++ statusText t.status ++
    Text.escapeFor [','] t.start ++ ", ".toList ++ Text.escapeFor [','] t.finish

def groupOf (t : Task) : Text := if t.group = [] then defaultGroup else t.group

/-- The lines of tasks; `current` is the section of the lines before. -/
def taskLines (current : Option Text) : List Task → List Text
  | [] => []
  | t :: rest =>
    if current = some (groupOf t) then taskLine t :: taskLines current rest
    else
      ("section ".toList ++ Text.escape (groupOf t)) :: taskLine t ::
        taskLines (some (groupOf t)) rest

def formatLines (format : Text) : List Text :=
  if format = [] then [] else ["dateFormat ".toList ++ format]

def write (g : Gantt) : Text :=
  body "gantt".toList (titleLines g.title ++ formatLines g.dateFormat ++ taskLines none g.tasks)

end DiagramDoc.Dialect.Tasks
