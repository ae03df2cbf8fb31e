import Wiring.CommandLine.Invocation
import Wiring.Environment
import Wiring.LogFilter.Basic

/-!
The log filter of an invocation: its options decide, and where they are silent the environment does.
-/

namespace Wiring.CommandLine

/-- The environment variable that may hold a log filter. -/
def filterVariable : String := "RUST_LOG"

/-- A filter that the environment holds counts only if all of it can be read. -/
def Invocation.logFilter (i : Invocation) (e : Environment) : LogFilter :=
  if i.verbose then ⟨[{ target := some "provgen", level := .debug }]⟩
  else if i.quiet then ⟨[{ level := .error }]⟩
  else ((e.lookup filterVariable).bind LogFilter.ofText?).getD ⟨[{ level := .warn }]⟩

end Wiring.CommandLine
