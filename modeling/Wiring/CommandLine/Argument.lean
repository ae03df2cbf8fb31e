/-!
# Arguments

An argument of the command line is a long option `--name` or `--name=value`, a cluster of short ones
`-abc`, the mark `--` after which no argument is an option, or anything else. A single dash is no
option.
-/

namespace Wiring.CommandLine

inductive Argument
  | escape
  | long (name : String) (value : Option String)
  | short (letters : List Char)
  | plain (text : String)
deriving DecidableEq, Repr

/-- The value behind an equals sign, if there is one. -/
def attachedValue? : List Char → Option String
  | [] => none
  | _ :: value => some (String.ofList value)

def Argument.ofText (text : String) : Argument :=
  match text.toList with
  | ['-', '-'] => .escape
  | '-' :: '-' :: cs =>
    .long (String.ofList (cs.takeWhile (· != '='))) (attachedValue? (cs.dropWhile (· != '=')))
  | '-' :: c :: cs => .short (c :: cs)
  | _ => .plain text

end Wiring.CommandLine
