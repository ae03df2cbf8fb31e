import Wiring.Conversion.Basic

/-!
Providers: what a code generator needs to write one method that looks a value up and converts it.
-/

namespace Wiring

structure Provider where
  /-- The name of the domain. -/
  domain : String
  /-- The name of the parameter. -/
  name : String
  default : Option String
  /-- The type that the provider returns. -/
  providedType : TypeRef
  /-- The type that a lookup yields. -/
  sourceType : TypeRef
  /-- Whether the parameter must have a value. -/
  required : Bool
  /-- Whether the provider may return null. -/
  nullable : Bool
  conversion : Conversion
  /-- The conversion of the looked-up value as an expression. -/
  expression : String
  methodName : String
  /-- The elements of the sites that the provider serves. -/
  sites : List String
deriving DecidableEq, Repr, Inhabited

end Wiring
