/-!
Dotted names, such as `java.util.List`.
-/

namespace Wiring.Text

/-- The part of a dotted name after its last dot, the whole name if it has none. -/
def simpleName (name : String) : String :=
  String.ofList (name.toList.reverse.takeWhile (· != '.')).reverse

end Wiring.Text
