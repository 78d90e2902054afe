import DiagramDoc.Command.Run

/-!
# The program

Runs command lines on the files of the system.
-/

namespace DiagramDoc.System

def codeOf : IO.Error → UInt32 × String
  | .alreadyExists _ code details | .otherError code details | .resourceBusy code details
  | .resourceVanished code details | .unsupportedOperation code details
  | .hardwareFault code details | .unsatisfiedConstraints code details
  | .illegalOperation code details | .protocolError code details | .timeExpired code details
  | .interrupted _ code details | .noFileOrDirectory _ code details
  | .invalidArgument _ code details | .permissionDenied _ code details
  | .resourceExhausted _ code details | .inappropriateType _ code details
  | .noSuchThing _ code details => (code, details)
  | .unexpectedEof => (0, "unexpected end of file")
  | .userError details => (0, details)

/-- System errors are numbered upwards or, from some operations, downwards from zero. -/
def faultOf (e : IO.Error) : Fault :=
  let (signed, details) := codeOf e
  let code := (Int32.ofNat signed.toNat).toInt.natAbs
  if code = 2 then .notFound
  else if code = 16 then .busy
  else if code = 17 then .alreadyExists
  else if code = 20 then .notDirectory
  else if code = 21 then .isDirectory
  else if code = 0 then .other details.toList
  else .other (Fault.numbered details.capitalize code)

def attempt {α : Type} (action : IO α) : IO (Except Fault α) := do
  try return .ok (← action) catch e => return .error (faultOf e)

def read (p : Text) : IO (Except Fault Text) := do
  match ← attempt (IO.FS.readBinFile ⟨String.ofList p⟩) with
  | .error fault => return .error fault
  | .ok bytes =>
    match String.fromUTF8? bytes with
    | some s => return .ok s.toList
    | none => return .error .notText

/-- Only a folder can be opened with a slash and a dot after its path. -/
def isFolder (p : Text) : IO Bool := do
  match ← attempt (IO.FS.Handle.mk ⟨String.ofList (p ++ ['/', '.'])⟩ .read) with
  | .ok _ => return true
  | .error _ => return false

def disk : Disk IO where
  read := read
  isFolder := isFolder
  makeFolder p := attempt (IO.FS.createDir ⟨String.ofList p⟩)
  create p := attempt (do discard (IO.FS.Handle.mk ⟨String.ofList p⟩ .writeNew))
  write p content := attempt (IO.FS.writeFile ⟨String.ofList p⟩ (String.ofList content))
  rename source target := attempt (IO.FS.rename ⟨String.ofList source⟩ ⟨String.ofList target⟩)
  remove p := do discard (attempt (IO.FS.removeFile ⟨String.ofList p⟩))
  stamp := IO.monoNanosNow

end DiagramDoc.System

open DiagramDoc in
def main (words : List String) : IO UInt32 := do
  let outcome ← Command.run System.disk "mermaid-magic".toList (words.map String.toList)
  IO.print (String.ofList outcome.output)
  unless outcome.errors.isEmpty do IO.eprintln (String.ofList outcome.errors)
  return UInt32.ofNat outcome.code
