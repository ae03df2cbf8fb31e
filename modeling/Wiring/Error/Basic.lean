import Wiring.Template.Basic
import Wiring.TypeRef.Parser

/-!
# Errors

One constructor for each cause. The structural errors say that the injection graph does not have
the expected shape; they end the work on a component. The others end the expansion of one name, the
emission of one provider, or the reading of one input.
-/

namespace Wiring

inductive Error
  /-- The root of a walk is not a component. -/
  | notAComponent (typeName : String)
  /-- A module reference names a type that is not a module. -/
  | notAModule (typeName referencedBy : String)
  /-- A root or a module reference names a type that the model does not declare; `suggestion` is
  the closest name that it does declare. -/
  | unknownType (typeName referencedBy : String) (suggestion : Option String)
  /-- A configuration qualifier without a name. -/
  | malformedQualifier (type element : String)
  /-- An injection site with more than one qualifier. -/
  | duplicateQualifier (element : String)
  /-- A primitive injection site that is marked nullable. -/
  | nullablePrimitive (element typeName : String)
  | templateSyntax (template : String) (cause : Template.SyntaxError)
  /-- A template refers to a value that cannot be looked up. -/
  | unresolvedVariable (name reason : String)
  | conversionUnavailable (name sourceType targetType : String)
  /-- Two representations would share one provider method. -/
  | providerNameCollision (methodName representation previous : String)
  | invalidTypeRef (input reason : String)
  | modelParse (file reason : String)
  | config (message : String)
  | io (message : String)
  | other (message : String)
deriving DecidableEq, Repr

namespace Error

def ofTypeRef (e : TypeRef.ParseError) : Error :=
  invalidTypeRef e.input e.reason

def message : Error → String
  | notAComponent typeName => "Type '" ++ typeName ++ "' is not a component"
  | notAModule typeName referencedBy =>
    "Type '" ++ typeName ++ "' referenced by '" ++ referencedBy ++ "' is not a module"
  | unknownType typeName referencedBy _ =>
    "Type '" ++ typeName ++ "' referenced by '" ++ referencedBy ++ "' is not declared"
  | malformedQualifier type element =>
    "Qualifier @" ++ type ++ " on " ++ element ++ " has no name"
  | duplicateQualifier element => "Injection site " ++ element ++ " has more than one qualifier"
  | nullablePrimitive element typeName =>
    "Injection site " ++ element ++ " has primitive type " ++ typeName ++ " but is marked nullable"
  | templateSyntax template cause => "Invalid name template '" ++ template ++ "': " ++ cause.message
  | unresolvedVariable name reason => "Cannot resolve variable '" ++ name ++ "': " ++ reason
  | conversionUnavailable name sourceType targetType =>
    "Cannot convert " ++ sourceType ++ " to " ++ targetType ++ " for parameter '" ++ name ++ "'"
  | providerNameCollision methodName representation previous =>
    "Provider method " ++ methodName ++ " for " ++ representation ++ " collides with " ++ previous
  | invalidTypeRef input reason => "Invalid type reference '" ++ input ++ "': " ++ reason
  | modelParse file reason => "Invalid model file " ++ file ++ ": " ++ reason
  | config message => "Configuration error: " ++ message
  | io message => "IO error: " ++ message
  | other message => message

instance : ToString Error := ⟨message⟩

/-- Whether the error says that the injection graph is malformed. -/
def isStructural : Error → Bool
  | notAComponent _ | notAModule .. | unknownType .. | malformedQualifier .. | duplicateQualifier _
  | nullablePrimitive .. => true
  | _ => false

end Error

end Wiring
