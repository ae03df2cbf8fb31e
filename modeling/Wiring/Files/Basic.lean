import Wiring.Error.Report

/-!
# Files

What a command finds on disk, as far as commands look: whether there is a file or a directory at a
path, and what they hold.
-/

namespace Wiring

/-- A file below a directory: the names on the way to it, and its content. -/
structure FileBelow where
  path : List String
  content : ByteArray

/-- Why a path cannot be followed. -/
inductive PathFault
  /-- It leads through a file as if it were a directory. -/
  | throughFile
  /-- It is too long, or a name in it is. -/
  | tooLong
  | nulCharacter
deriving DecidableEq, Repr

def PathFault.message : PathFault → String
  | throughFile => "Not a directory (os error 20)"
  | tooLong => "File name too long (os error 36)"
  | nulCharacter => "file name contained an unexpected NUL byte"

/-- What is at a path. -/
inductive Found
  | missing
  | unreachable (fault : PathFault)
  | file (content : ByteArray)
  /-- A directory with the files at any depth below it, those of each directory in name order. -/
  | directory (files : List FileBelow)

/-- What is at each path. -/
abbrev Files := String → Found

namespace Found

def isFile : Found → Bool
  | file _ => true
  | _ => false

/-- Whether there is anything at the path. -/
def isPresent : Found → Bool
  | file _ | directory _ => true
  | _ => false

end Found

/-- The text with these bytes. -/
def decodeText (bytes : ByteArray) : Except Cause String :=
  match String.fromUTF8? bytes with
  | some text => .ok text
  | none => .error (.io "stream did not contain valid UTF-8")

namespace Files

/-- The text of the file at a path. -/
def readText (files : Files) (path : String) : Except Cause String :=
  match files path with
  | .missing => .error (.notFound "No such file or directory (os error 2)")
  | .unreachable fault => .error (.io fault.message)
  | .directory _ => .error (.io "Is a directory (os error 21)")
  | .file content => decodeText content

end Files

/-- The path of something below the directory `directory`. -/
def joinPath (directory : String) (below : List String) : String :=
  (if directory.endsWith "/" then directory else directory ++ "/") ++ "/".intercalate below

end Wiring
