import Wiring.Error.Basic
import Wiring.Order.UntilFailure
import Wiring.Template.Basic

/-!
# Expansion of name templates

Expansion puts the value of its variable in the place of each expression. A variable is `env.NAME`
for the environment or `sys.name` for a property. Segments are expanded from the left, so a variable
without a value is reported before a malformed expression to its right.
-/

namespace Wiring.Template

/-- Where variables have their values. -/
structure Sources where
  environment : String → Option String
  properties : String → Option String

/-- The value of a variable, if it has one. -/
def Sources.lookup (s : Sources) (name : String) : Except Error (Option String) :=
  match name.toList with
  | 'e' :: 'n' :: 'v' :: '.' :: key => .ok (s.environment (String.ofList key))
  | 's' :: 'y' :: 's' :: '.' :: key => .ok (s.properties (String.ofList key))
  | _ => .error (.unresolvedVariable name "expected an 'env.' or 'sys.' prefix")

/-- The text that takes the place of a segment. -/
def Segment.expand (s : Sources) : Segment → Except Error String
  | text literal => .ok literal
  | reference name => do
    match ← s.lookup name with
    | some value => return value
    | none => throw (.unresolvedVariable name "no value is set and no default was given")
  | referenceOr name default => return (← s.lookup name).getD default

/-- What was written before the first error, and that error if there is one. -/
structure Expansion where
  written : String
  failure : Option Error
deriving DecidableEq, Repr

/-- The expansion of a template, as far as it goes. -/
def expansion (s : Sources) (template : String) : Expansion :=
  let stream := stream template
  let (texts, unresolved) := untilFailure (fun e => e.segment.expand s) stream.events
  ⟨String.join texts,
    unresolved.or (stream.failure.map (.templateSyntax template))⟩

/-- The expansion of a template without errors. -/
def expand (s : Sources) (template : String) : Except Error String :=
  let result := expansion s template
  match result.failure with
  | none => .ok result.written
  | some e => .error e

end Wiring.Template
