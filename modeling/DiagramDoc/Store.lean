import DiagramDoc.Document.Decode
import DiagramDoc.Document.Encode
import DiagramDoc.Files.Disk
import DiagramDoc.Files.Path
import DiagramDoc.Json.Reader
import DiagramDoc.Text.Quoted

/-!
# Data files

A diagram is kept in a file of JSON text. Saving writes a temporary file beside it and renames that
over it, so the file holds the old text or the new one and never a part. Loading replaces a file
that is missing, or that is no JSON, by the starter diagram.
-/

namespace DiagramDoc

structure StoreError where
  path : Text
  fault : Fault
deriving DecidableEq

namespace StoreError

def message (e : StoreError) : Text :=
  "io error at ".toList ++ Text.quoted e.path ++ [':', ' '] ++ e.fault.message

end StoreError

namespace Disk

variable {m : Type → Type} [Monad m] (disk : Disk m)

/-- Makes the first of some paths that can be made or is a folder already, and tells which before it
could not be made for want of a folder above, the last of them first. -/
def climb (missing : List Text) : List Text → m (Except Fault (List Text))
  | [] => pure (.ok missing)
  | p :: rest => do
    match ← disk.makeFolder p with
    | .ok _ => pure (.ok missing)
    | .error .notFound => climb (p :: missing) rest
    | .error fault =>
      if fault = .alreadyExists then
        if ← disk.isFolder p then pure (.ok missing) else pure (.error fault)
      else pure (.error fault)

def makeEach : List Text → m (Except Fault Unit)
  | [] => pure (.ok ())
  | p :: rest => do
    match ← disk.makeFolder p with
    | .ok _ => makeEach rest
    | .error fault =>
      if fault = .alreadyExists then
        if ← disk.isFolder p then makeEach rest else pure (.error fault)
      else pure (.error fault)

/-- Makes a folder and the folders above it that are missing. -/
def makeFolders (p : Text) : m (Except Fault Unit) := do
  match ← climb disk [] (Path.ancestors p) with
  | .ok missing => makeEach disk missing
  | .error fault => pure (.error fault)

/-- The folder that a file is in; without one in its path it is the current folder. -/
def folderOf (p : Text) : Text :=
  match Path.parent? p with
  | some (c :: rest) => c :: rest
  | _ => ['.']

def temporaryName (name : Text) (stamp : Nat) : Text :=
  ".mermaid-magic.tmp.".toList ++ name ++ '.' :: Digits.ofNat stamp

/-- Fills a new temporary file and renames it; whatever fails after its creation, it is removed.
Renaming takes the place of the old file in one step, as it does on every system but Windows.
There, a rename that is refused is tried again once the old file was removed; that is not modelled. -/
def replaceBy (temporary p content : Text) : m (Except StoreError Unit) := do
  match ← disk.create temporary with
  | .error fault => pure (.error ⟨temporary, fault⟩)
  | .ok _ =>
    match ← disk.write temporary content with
    | .error fault =>
      disk.remove temporary
      pure (.error ⟨temporary, fault⟩)
    | .ok _ =>
      match ← disk.rename temporary p with
      | .error fault =>
        disk.remove temporary
        pure (.error ⟨p, fault⟩)
      | .ok _ => pure (.ok ())

def replace (p content : Text) : m (Except StoreError Unit) := do
  match Path.fileName? p with
  | none => pure (.error ⟨p, .noFileName⟩)
  | some name =>
    match ← disk.makeFolders (folderOf p) with
    | .error fault => pure (.error ⟨folderOf p, fault⟩)
    | .ok _ =>
      disk.replaceBy (Path.child (folderOf p) (temporaryName name (← disk.stamp))) p content

def save (p : Text) (d : Diagram) : m (Except StoreError Unit) := disk.replace p d.toDocument

def reset (p : Text) : m (Except StoreError Diagram) := do
  match ← disk.save p Diagram.starter with
  | .ok _ => pure (.ok Diagram.starter)
  | .error e => pure (.error e)

def load (p : Text) : m (Except StoreError Diagram) := do
  match ← disk.read p with
  | .ok content =>
    match Json.read? content with
    | some document => pure (.ok (Diagram.ofJson document))
    | none => disk.reset p
  | .error .notFound => disk.reset p
  | .error fault => pure (.error ⟨p, fault⟩)

end Disk
end DiagramDoc
