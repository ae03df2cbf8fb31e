import Wiring.Error.Basic
import Wiring.Text.Style

/-!
# Error reports

A `Failure` is what ends a command: a cause, and the contexts in which it arose. A `Report` is what
the user is told about it: one error, with details and a suggestion where there are any. An error of
the library speaks for itself; any other cause is reported with its contexts, the outermost first.
-/

namespace Wiring

/-- What an input or output operation, a document reader or a command stumbled on. -/
inductive Cause
  | error (e : Error)
  | notFound (message : String)
  | io (message : String)
  | document (message : String)
  | message (text : String)
deriving DecidableEq, Repr

def Cause.text : Cause → String
  | error e => e.message
  | notFound m | io m | document m | message m => m

/-- A cause and the contexts around it, the outermost first. -/
structure Failure where
  contexts : List String
  cause : Cause
deriving DecidableEq, Repr

namespace Failure

def ofError (e : Error) : Failure := ⟨[], .error e⟩

def ofMessage (text : String) : Failure := ⟨[], .message text⟩

/-- The failure in one more context. -/
def within (f : Failure) (context : String) : Failure :=
  { f with contexts := context :: f.contexts }

/-- The texts of a failure, from the outermost context to the cause. -/
def chain (f : Failure) : List String := f.contexts ++ [f.cause.text]

/-- The numbered lines of the causes under the first text. -/
def causeLines (first : Nat) : List String → String
  | [] => ""
  | cause :: causes =>
    "\n  " ++ toString first ++ ": " ++ cause ++ causeLines (first + 1) causes

/-- The outermost text, followed by what caused it. -/
def chainMessage (f : Failure) : String :=
  match f.chain with
  | [] => ""
  | [text] => text
  | text :: causes => text ++ "\n\nCaused by:" ++ causeLines 1 causes

end Failure

/-- An error with what helps to understand and to mend it. -/
structure Report where
  error : Error
  details : Option String := none
  suggestion : Option String := none
deriving DecidableEq, Repr

namespace Report

/-- The report of an error of the library. Errors of input and output lose their kind. -/
def ofError (e : Error) : Report :=
  match e with
  | .notAComponent typeName =>
    { error := e
      details := some
        ("'" ++ typeName ++ "' must be declared with kind = \"component\" to be walked")
      suggestion := some
        "Select component roots with --component, or fix the declaration's kind" }
  | .notAModule _ referencedBy =>
    { error := e
      details := some "Components and modules may only include types declared as modules"
      suggestion := some ("Remove the reference from '" ++ referencedBy ++
        "' or declare the type with kind = \"module\"") }
  | .unknownType _ _ suggestion =>
    { error := e
      suggestion := some <| match suggestion with
        | some name => "Did you mean '" ++ name ++ "'?"
        | none => "Declare the type in the model file" }
  | .malformedQualifier .. =>
    { error := e
      details := some "Configuration qualifiers identify the external value by name"
      suggestion := some "Add a `name` to the qualifier annotation" }
  | .nullablePrimitive .. =>
    { error := e
      suggestion := some "Use the boxed type or java.util.Optional for nullable values" }
  | .templateSyntax .. =>
    { error := e
      suggestion := some ("Variables use $\x7bNAME\x7d or $\x7bNAME:-default\x7d; " ++
        "a bare '$' is literal text") }
  | .io _ => { error := .other e.message }
  | _ => { error := e }

def ofFailure (f : Failure) : Report :=
  match f.cause with
  | .error e => ofError e
  | .notFound _ =>
    { error := .other f.chainMessage
      suggestion := some
        "Check that the model file or directory exists and the path is correct" }
  | .document _ =>
    { error := .other f.chainMessage
      details := some "Model and configuration files are TOML documents"
      suggestion := some "Check the TOML syntax. Verify quotes, brackets, and table headers" }
  | .io _ | .message _ => { error := .other f.chainMessage }

/-- The report as plain text. -/
def text (r : Report) : String :=
  r.error.message ++
  (match r.details with
    | some details => "\nDetails: " ++ details
    | none => "") ++
  (match r.suggestion with
    | some suggestion => "\nSuggestion: " ++ suggestion
    | none => "")

/-- The report as lines for a terminal. -/
def terminal (r : Report) (styled : Text.Style.Enabled) : String :=
  Text.Style.red.strong.paint styled "error" ++ ": " ++ r.error.message ++ "\n" ++
  (match r.details with
    | some details => Text.Style.yellow.paint styled "details" ++ ": " ++ details ++ "\n"
    | none => "") ++
  (match r.suggestion with
    | some suggestion => Text.Style.green.paint styled "suggestion" ++ ": " ++ suggestion ++ "\n"
    | none => "")

end Report

end Wiring
