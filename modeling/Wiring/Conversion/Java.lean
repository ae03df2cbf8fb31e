import Wiring.Conversion.Basic

/-!
Conversions as Java expressions. The value is given as the text of an expression and occurs once in
the result. A list is converted by a lambda whose variables carry the depth of the list in their
names, so that lists in lists do not share them.
-/

namespace Wiring.Conversion.Java

/-- The name of a class as an expression refers to it. -/
def typeName (t : TypeRef) : String := t.erasure?.getD t.text

/-- What a generated conversion says of an empty string where a character is wanted. -/
def emptyCharMessage : String := "cannot convert empty string to char"

/-- What stands before and after a string that is parsed as a primitive. -/
def parseCall : Primitive → String
  | .boolean => "Boolean.parseBoolean("
  | .byte => "Byte.parseByte("
  | .short => "Short.parseShort("
  | .int => "Integer.parseInt("
  | .long => "Long.parseLong("
  | .float => "Float.parseFloat("
  | .double => "Double.parseDouble("
  | .char =>
    "((java.util.function.Function<String, Character>) s -> \x7b " ++
    "if (s.isEmpty()) throw new IllegalArgumentException(\"" ++ emptyCharMessage ++ "\"); " ++
    "return s.charAt(0); \x7d).apply("

/-- The conversion of `value` inside `depth` lists. -/
def renderAt (depth : Nat) (value : String) : Conversion → String
  | .identity => value
  | .parsePrimitive kind => parseCall kind ++ value ++ ")"
  | .valueOf target => typeName target ++ ".valueOf(" ++ value ++ ")"
  | .fromString target => typeName target ++ ".fromString(" ++ value ++ ")"
  | .construct target => "new " ++ typeName target ++ "(" ++ value ++ ")"
  | .eachElement _ element =>
    let item := "e" ++ toString depth
    let caught := "x" ++ toString depth
    value ++ ".stream().map(" ++ item ++ " -> \x7b try \x7b return " ++
    renderAt (depth + 1) item element ++ "; \x7d " ++
    "catch (RuntimeException " ++ caught ++ ") \x7b throw " ++ caught ++ "; \x7d " ++
    "catch (Exception " ++ caught ++ ") \x7b throw new IllegalArgumentException(" ++ caught ++
    "); \x7d \x7d).collect(java.util.stream.Collectors.toList())"

/-- A Java expression that converts `value`. -/
def render (c : Conversion) (value : String) : String := renderAt 0 value c

/-- A Java expression that converts `value` from `source` to `target` by the standard chain. -/
def expression? (m : Model) (target source : TypeRef) (value : String) : Option String :=
  (Chain.standard.resolve m target source).map (render · value)

end Wiring.Conversion.Java
