import Wiring.Error.Report
import Wiring.Model.Basic
import Wiring.Pattern.Parser

/-!
The components that a command is about: those whose names match one of some patterns, or all of them
if there are no patterns. It is an error if there are none.
-/

namespace Wiring

/-- Reads a pattern for the names of components. -/
def componentPattern (text : String) : Except Failure Pattern :=
  (Pattern.parse text).mapError fun e =>
    (Failure.ofMessage e.message).within ("Invalid component pattern '" ++ text ++ "'")

/-- The names of the selected components, in order. -/
def Model.select (m : Model) (patterns : List String) : Except Failure (List String) := do
  let names := m.components.map (·.name)
  if patterns.isEmpty then
    if names.isEmpty then throw (.ofMessage "The model declares no components")
    return names
  let compiled ← patterns.mapM componentPattern
  let selected := names.filter fun name => compiled.any (·.accepts name)
  if selected.isEmpty then
    throw (.ofMessage ("No component matches " ++ ", ".intercalate patterns))
  return selected

end Wiring
