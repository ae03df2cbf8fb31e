import Wiring.Model.Basic

/-!
# Builtin types

The library types that every model knows, with the members that make values of them from strings.
-/

namespace Wiring

/-- The parameter list of a method that takes one string. -/
def stringParameter : List Parameter := [{ name := "s", type := .string }]

/-- The static method `name(java.lang.String)` of the class `owner` that returns an `owner`. -/
def stringFactory (owner name : String) : Method :=
  { name, returns := .declared owner [], parameters := stringParameter, isStatic := true }

/-- The constructor of the class `owner` from a string. -/
def stringConstructor (owner : String) : Method :=
  { name := "<init>", returns := .declared owner [], parameters := stringParameter }

/-- The class that boxes a primitive. A character is not made from a string by `valueOf`. -/
def boxedType (kind : Primitive) : TypeDecl :=
  { name := kind.boxedName
    methods := if kind = .char then [] else [stringFactory kind.boxedName "valueOf"] }

def builtinTypes : List TypeDecl :=
  { name := TypeRef.stringName } :: Primitive.all.map boxedType ++
  ["java.math.BigDecimal", "java.math.BigInteger", "java.net.URI"].map
    (fun name => { name, constructors := [stringConstructor name] }) ++
  [{ name := "java.util.UUID", methods := [stringFactory "java.util.UUID" "fromString"] }]

/-- The model that declares the builtin types only. -/
def Model.builtin : Model := Model.empty.insertAll builtinTypes

end Wiring
