import DiagramDoc.Files.Disk
import DiagramDoc.Files.Path

/-!
# File trees

Files and folders below a top folder, as a list of places and what is there. A place is the list of
names that leads to it. The operations of a disk act on such a tree, and fail as a file system does:
a name is looked up folder by folder, and a path with a slash at its end has to lead to a folder.
-/

namespace DiagramDoc

/-- What a file holds: text, or bytes that are no text. -/
inductive Content where
  | text (t : Text)
  | bytes (bytes : List UInt8)
deriving DecidableEq

namespace Content

def ofBytes (bytes : List UInt8) : Content :=
  match String.fromUTF8? ⟨bytes.toArray⟩ with
  | some s => .text s.toList
  | none => .bytes bytes

end Content

inductive Entry where
  | folder
  | file (content : Content)
deriving DecidableEq

abbrev Place := List Text

structure Tree where
  entries : List (Place × Entry) := []
deriving DecidableEq

namespace Tree

def at? (t : Tree) (place : Place) : Option Entry :=
  if place = [] then some .folder else t.entries.lookup place

def erase (t : Tree) (place : Place) : Tree := ⟨t.entries.filter fun e => e.1 ≠ place⟩

def put (t : Tree) (place : Place) (entry : Entry) : Tree :=
  ⟨(place, entry) :: (t.erase place).entries⟩

/-- Follows the segments of a path from a folder on. A file may only stand at the very end. -/
def follow (t : Tree) (place : Place) : List Text → Except Fault (Place × Entry)
  | [] => .ok (place, .folder)
  | segment :: rest =>
    if Path.isIdle segment then t.follow place rest
    else if Path.isDoubleDot segment then t.follow place.dropLast rest
    else
      match t.at? (place ++ [segment]) with
      | none => .error .notFound
      | some .folder => t.follow (place ++ [segment]) rest
      | some (.file content) =>
        if rest = [] then .ok (place ++ [segment], .file content) else .error .notDirectory

def locate (t : Tree) (p : Text) : Except Fault (Place × Entry) :=
  if p = [] then .error .notFound else t.follow [] (Path.segments p)

def enter (t : Tree) (segments : List Text) : Except Fault Place :=
  match t.follow [] segments with
  | .ok (place, .folder) => .ok place
  | .ok (_, .file _) => .error .notDirectory
  | .error fault => .error fault

/-- The last segment of a path in front of any slashes at its end. -/
inductive Last where
  | top
  | dots (folder : Place)
  | name (folder : Place) (name : Text) (slash : Bool)

def approach (t : Tree) (p : Text) : Except Fault Last :=
  if p = [] then .error .notFound
  else
    let segments := Path.segments p
    let kept := (segments.reverse.dropWhile (· == [])).reverse
    match kept.getLast? with
    | none => .ok .top
    | some last =>
      match t.enter kept.dropLast with
      | .error fault => .error fault
      | .ok folder =>
        if Path.isDot last || Path.isDoubleDot last then .ok (.dots folder)
        else .ok (.name folder last (kept.length < segments.length))

def read (t : Tree) (p : Text) : Except Fault Text :=
  match t.locate p with
  | .ok (_, .file (.text text)) => .ok text
  | .ok (_, .file (.bytes _)) => .error .notText
  | .ok (_, .folder) => .error .isDirectory
  | .error fault => .error fault

def isFolder (t : Tree) (p : Text) : Bool :=
  match t.locate p with
  | .ok (_, .folder) => true
  | _ => false

def make (t : Tree) (p : Text) (entry : Entry) : Except Fault Tree :=
  match t.approach p with
  | .error fault => .error fault
  | .ok (.name folder name _) =>
    if (t.at? (folder ++ [name])).isSome then .error .alreadyExists
    else .ok (t.put (folder ++ [name]) entry)
  | .ok _ => .error .alreadyExists

def write (t : Tree) (p content : Text) : Except Fault Tree :=
  match t.locate p with
  | .ok (place, .file _) => .ok (t.put place (.file (.text content)))
  | .ok (_, .folder) => .error .isDirectory
  | .error fault => .error fault

def rename (t : Tree) (source target : Text) : Except Fault Tree :=
  match t.locate source with
  | .error fault => .error fault
  | .ok (_, .folder) => .error .isDirectory
  | .ok (place, .file content) =>
    match t.approach target with
    | .error fault => .error fault
    | .ok (.name _ _ true) => .error .notDirectory
    | .ok (.name folder name false) =>
      if t.at? (folder ++ [name]) = some .folder then .error .isDirectory
      else .ok ((t.erase place).put (folder ++ [name]) (.file content))
    | .ok _ => .error .busy

def remove (t : Tree) (p : Text) : Tree :=
  match t.locate p with
  | .ok (place, .file _) => t.erase place
  | _ => t

def step (operation : Tree → Except Fault Tree) : StateM Tree (Except Fault Unit) := do
  match operation (← get) with
  | .ok t => set t; pure (.ok ())
  | .error fault => pure (.error fault)

/-- The disk whose world is a tree, with one stamp for all temporary files. -/
def disk (stamp : Nat) : Disk (StateM Tree) where
  read p := do pure ((← get).read p)
  isFolder p := do pure ((← get).isFolder p)
  makeFolder p := step fun t => t.make p .folder
  create p := step fun t => t.make p (.file (.text []))
  write p content := step fun t => t.write p content
  rename source target := step fun t => t.rename source target
  remove p := modify fun t => t.remove p
  stamp := pure stamp

def plant (t : Tree) (place : Place) (entry : Entry) : Tree :=
  ((List.range place.length).foldl
    (fun t n => if (t.at? (place.take n)).isSome then t else t.put (place.take n) .folder) t).put
    place entry

def leaves (t : Tree) : List (Place × Entry) :=
  t.entries.filter fun e =>
    match e.2 with
    | .file _ => true
    | .folder => t.entries.all fun other => other.1 == e.1 || !e.1.isPrefixOf other.1

end Tree
end DiagramDoc
