import DiagramDoc.Number.Digits

/-!
# Disks

What a program can do with files, in whatever world it runs, and how each of it can fail.
-/

namespace DiagramDoc

inductive Fault where
  | notFound
  | notDirectory
  | isDirectory
  | alreadyExists
  | busy
  | notText
  | noFileName
  | other (text : Text)
deriving DecidableEq

namespace Fault

def numbered (text : String) (code : Nat) : Text :=
  text.toList ++ " (os error ".toList ++ Digits.ofNat code ++ [')']

def message : Fault → Text
  | .notFound => numbered "No such file or directory" 2
  | .notDirectory => numbered "Not a directory" 20
  | .isDirectory => numbered "Is a directory" 21
  | .alreadyExists => numbered "File exists" 17
  | .busy => numbered "Device or resource busy" 16
  | .notText => "stream did not contain valid UTF-8".toList
  | .noFileName => "path has no file name".toList
  | .other text => text

end Fault

/-- File operations, and stamps that make the names of temporary files differ. -/
structure Disk (m : Type → Type) where
  read : Text → m (Except Fault Text)
  isFolder : Text → m Bool
  makeFolder : Text → m (Except Fault Unit)
  create : Text → m (Except Fault Unit)
  write : Text → Text → m (Except Fault Unit)
  rename : Text → Text → m (Except Fault Unit)
  remove : Text → m Unit
  stamp : m Nat

end DiagramDoc
