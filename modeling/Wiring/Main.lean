import Wiring.CommandLine.Help
import Wiring.CommandLine.Run

/-!
# The program

Gathers what a command may look at, the environment and the files at the paths that its command line
names, lets the command run, and writes what it says.
-/

namespace Wiring.Program

open CommandLine

/-- The lines of the environment. -/
def environment : IO Environment := do
  let bytes ← try IO.FS.readBinFile "/proc/self/environ" catch _ => pure ByteArray.empty
  return ⟨((String.fromUTF8? bytes).getD "").splitOn "\x00"⟩

/-- The files below the directory at a path from the working directory, those of each directory in
name order. `way` holds the names that lead there from where the search began. -/
partial def filesBelow (path : String) (way : List String) : IO (List FileBelow) := do
  let entries ← ((← IO.currentDir) / path).readDir
  let names := (entries.toList.map (·.fileName)).mergeSort fun a b => a ≤ b
  let found ← names.mapM fun name => do
    let inner := joinPath path [name]
    if ← ((← IO.currentDir) / inner).isDir then filesBelow inner (way ++ [name])
    else
      try return [⟨way ++ [name], ← IO.FS.readBinFile inner⟩]
      catch _ => return []
  return found.flatten

/-- What is at a path from the working directory. -/
def find (path : String) : IO Found := do
  if path.isEmpty then return .missing
  if path.contains '\x00' then return .unreachable .nulCharacter
  try
    if ← ((← IO.currentDir) / path).isDir then return .directory (← filesBelow path [])
    else return .file (← IO.FS.readBinFile path)
  catch
    | .noFileOrDirectory .. | .noSuchThing .. => return .missing
    | .invalidArgument .. => return .unreachable .tooLong
    | _ => return .unreachable .throughFile

/-- What is at some paths; nothing is at any other. -/
def gather (paths : List String) : IO Files := do
  let found ← paths.mapM fun path => return (path, ← find path)
  return fun path => (found.lookup path).getD .missing

/-- Whether the output is styled: on a terminal, unless the environment asks for plain text. -/
def isStyled (e : Environment) : IO Bool := do
  return (e.lookup "NO_COLOR").isNone && (← (← IO.getStdout).isTty)

/-- Runs the program and hands back its exit code. -/
def run (args : List String) : IO Nat := do
  match Invocation.read args with
  | .error usage =>
    if usage.isAsked then IO.println usage.text else IO.eprintln usage.text
    return usage.exitCode
  | .ok invocation =>
    let e ← environment
    let styled ← isStyled e
    let outcome := invocation.run ⟨← gather (invocation.paths e), e, styled⟩
    IO.print outcome.stdout
    IO.eprint (outcome.errorText styled)
    return outcome.exitCode

end Wiring.Program

def main (args : List String) : IO UInt32 :=
  return (← Wiring.Program.run args).toUInt32
