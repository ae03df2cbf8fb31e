/-!
The environment of the program: lines of the form `NAME=value`.
-/

namespace Wiring

structure Environment where
  lines : List String
deriving DecidableEq, Repr, Inhabited

namespace Environment

def ofList (values : List (String × String)) : Environment :=
  ⟨values.map fun (name, value) => name ++ "=" ++ value⟩

/-- What follows `start` in `cs`, if `cs` begins with it. -/
def after? : (start cs : List Char) → Option (List Char)
  | [], cs => some cs
  | _ :: _, [] => none
  | a :: start, c :: cs => if a = c then after? start cs else none

/-- The value of the first line that begins with the name and an equals sign. Nothing has the empty
name. -/
def lookup (e : Environment) (name : String) : Option String :=
  if name.isEmpty then none
  else e.lines.findSome? fun line => (after? (name.toList ++ ['=']) line.toList).map String.ofList

end Environment

end Wiring
