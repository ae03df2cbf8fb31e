import Wiring.Text.Style

/-!
# Diagnostics

What a generation pass reports beside its providers. A warning tells of a conflict that the pass
settled, an error of a single value or provider that it had to leave out.
-/

namespace Wiring

inductive Severity
  | note
  | warning
  | error
deriving DecidableEq, Repr, Inhabited

namespace Severity

def name : Severity → String
  | note => "note"
  | warning => "warning"
  | error => "error"

/-- Severities from the least to the greatest. -/
def rank : Severity → Nat
  | note => 0
  | warning => 1
  | error => 2

def style : Severity → Text.Style
  | note => Text.Style.cyan.strong
  | warning => Text.Style.yellow.strong
  | error => Text.Style.red.strong

/-- The greater of two severities. -/
def max (a b : Severity) : Severity := if a.rank ≤ b.rank then b else a

end Severity

/-- A message, and the declaring element that it is about if there is one. -/
structure Diagnostic where
  severity : Severity
  message : String
  element : Option String := none
deriving DecidableEq, Repr, Inhabited

namespace Diagnostic

def text (d : Diagnostic) : String :=
  d.severity.name ++ ": " ++ d.message ++
  match d.element with
  | some element => " (" ++ element ++ ")"
  | none => ""

instance : ToString Diagnostic := ⟨text⟩

/-- The diagnostic for a terminal, with its element on a line of its own. -/
def terminal (d : Diagnostic) (styled : Text.Style.Enabled) : String :=
  d.severity.style.paint styled d.severity.name ++ ": " ++ d.message ++
  match d.element with
  | some element => "\n  --> " ++ Text.Style.dimmed.paint styled element
  | none => ""

/-- How many of the diagnostics have this severity. -/
def count (ds : List Diagnostic) (s : Severity) : Nat :=
  (ds.filter (·.severity == s)).length

def hasErrors (ds : List Diagnostic) : Bool := 0 < count ds .error

/-- The greatest severity of the diagnostics. -/
def maxSeverity? : List Diagnostic → Option Severity
  | [] => none
  | d :: ds => some <| match maxSeverity? ds with
    | none => d.severity
    | some s => d.severity.max s

end Diagnostic

end Wiring
