import DiagramDoc.Command.Options
import DiagramDoc.Dialect.Basic
import DiagramDoc.Dialect.Marker
import DiagramDoc.Document.Schema
import DiagramDoc.Store
import DiagramDoc.Table.Export

/-!
# Running commands

What a command prints and which files it changes. A command line that cannot be read ends with code
2 and the usage, a command that fails with code 1 and the reason.
-/

namespace DiagramDoc.Command

inductive RunError where
  | store (error : StoreError)
  | source (path : Text) (fault : Fault)
  | text (error : Dialect.ReadError)
deriving DecidableEq

namespace RunError

def message : RunError → Text
  | .store error => error.message
  | .source path fault =>
    "cannot read ".toList ++ Text.quoted path ++ [':', ' '] ++ fault.message
  | .text error => error.message

end RunError

structure Outcome where
  code : Nat
  output : Text
  errors : Text
deriving DecidableEq

def defaultDataFile : Text := "mermaid-magic.json".toList

variable {m : Type → Type} [Monad m] (disk : Disk m)

def withDiagram (data : Text) (use : Diagram → Text) : m (Except RunError Text) := do
  match ← disk.load data with
  | .ok d => pure (.ok (use d ++ ['\n']))
  | .error e => pure (.error (.store e))

def saveSilently (data : Text) (d : Diagram) : m (Except RunError Text) := do
  match ← disk.save data d with
  | .ok _ => pure (.ok [])
  | .error e => pure (.error (.store e))

/-- Reads the source before the document is loaded. -/
def readText (data source : Text) : m (Except RunError Text) := do
  match ← disk.read source with
  | .error fault => pure (.error (.source source fault))
  | .ok text =>
    match ← disk.load data with
    | .error e => pure (.error (.store e))
    | .ok previous =>
      match Diagram.readText text previous with
      | .error e => pure (.error (.text e))
      | .ok d => saveSilently disk data d

def normalize (data : Text) : m (Except RunError Text) := do
  match ← disk.load data with
  | .error e => pure (.error (.store e))
  | .ok d => saveSilently disk data d

def execute (o : Options) : m (Except RunError Text) :=
  let data := o.data.getD defaultDataFile
  match o.action with
  | .writeText marked =>
    withDiagram disk data fun d => if marked then Marker.mark d.writeText else d.writeText
  | .writeTable => withDiagram disk data Diagram.writeTable
  | .readText source => readText disk data source
  | .normalize => normalize disk data
  | .schema => pure (.ok (Schema.write ++ ['\n']))

def run (program : Text) (words : List Text) : m Outcome := do
  match Options.read? words with
  | none => pure ⟨2, [], usage program⟩
  | some options =>
    match ← execute disk options with
    | .ok output => pure ⟨0, output, []⟩
    | .error e => pure ⟨1, [], "mermaid-magic: ".toList ++ e.message⟩

end DiagramDoc.Command
