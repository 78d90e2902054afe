import DiagramDoc.Dialect.Line
import DiagramDoc.Dialect.Scope
import DiagramDoc.Number.Numeral

/-!
# Journey text

A line sets the title, begins a section, or adds a step to the current section. A step has a task, a
score and personas, with colons between them and commas between the personas.
-/

namespace DiagramDoc.Dialect.Steps

def defaultGroup : Text := "Journey".toList

structure Entry where
  task : Text
  score : Number
  personas : List Text
deriving DecidableEq

def readPersonas (t : Text) : List Text :=
  (((Text.splitUnescaped ',' t).map Text.trim).filter (· ≠ [])).map Text.unescape

/-- A score that stands for no finite number is the default score; an empty one is zero. -/
def readScore (t : Text) : Number :=
  let score := Number.ofText t
  if score.isFinite then score else Step.defaultScore

def readStep? (line : Text) : Option Entry :=
  (Text.cutUnescaped? ':' line).map fun (task, rest) =>
    let (score, personas) := (Text.cutUnescaped? ':' rest).getD (rest, [])
    { task := Text.unescape (Text.trim task)
      score := readScore score
      personas := readPersonas personas }

inductive Line where
  | title (text : Text)
  | group (name : Text)
  | step (entry : Entry)
deriving DecidableEq

def readLine? (line : Text) : Option Line :=
  match Text.afterKeyword? "title".toList line with
  | some title => some (.title (Text.unescape title))
  | none =>
    match Text.afterKeyword? "section".toList line with
    | some name => some (.group (if name = [] then defaultGroup else Text.unescape name))
    | none => (readStep? line).map .step

structure Draft where
  scope : Scope
  group : Text := defaultGroup
  chart : Journey := {}

def Draft.readLine (d : Draft) (line : Text) : Draft :=
  match readLine? line with
  | some (.title title) => { d with chart := { d.chart with title } }
  | some (.group group) => { d with group }
  | some (.step entry) =>
    let (id, scope) := d.scope.fresh
    let step : Step :=
      { id, group := d.group, task := entry.task, score := entry.score, personas := entry.personas }
    { d with scope, chart := { d.chart with steps := d.chart.steps ++ [step] } }
  | none => { d with scope := d.scope.skip .journey line }

def read (lines : List Text) (scope : Scope) : Journey × Scope :=
  let draft := lines.foldl Draft.readLine { scope }
  (draft.chart, draft.scope)

def personasText (personas : List Text) : Text :=
  if personas = [] then []
  else ' ' :: Text.join [',', ' '] (personas.map (Text.escapeFor [',']))

def stepLine (s : Step) : Text :=
  Text.escapeFor [':'] s.task ++ ": ".toList ++ s.score.toText ++ ':' :: personasText s.personas

def groupOf (s : Step) : Text := if s.group = [] then defaultGroup else s.group

def stepLines (current : Option Text) : List Step → List Text
  | [] => []
  | s :: rest =>
    if current = some (groupOf s) then stepLine s :: stepLines current rest
    else
      ("section ".toList ++ Text.escape (groupOf s)) :: stepLine s ::
        stepLines (some (groupOf s)) rest

def write (j : Journey) : Text :=
  body "journey".toList (titleLines j.title ++ stepLines none j.steps)

end DiagramDoc.Dialect.Steps
