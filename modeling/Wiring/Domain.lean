import Wiring.Declaration

/-!
# Configuration domains

A domain is one family of external values, such as the environment variables. The sites of a domain
are those with its qualifier.
-/

namespace Wiring

structure Domain where
  name : String
  /-- The qualifier annotation of the domain, with or without its package. -/
  qualifier : String
  /-- What the names of its provider methods have after `provide`. -/
  methodTag : String
  /-- Whether one parameter may have several values. -/
  multiValued : Bool := false
deriving DecidableEq, Repr, Inhabited

namespace Domain

def builtin : List Domain :=
  [ { name := "env", qualifier := "EnvironmentVariable", methodTag := "Env" },
    { name := "sys", qualifier := "SystemProperty", methodTag := "Sys" },
    { name := "ssm", qualifier := "AwsSsmParameter", methodTag := "Ssm" },
    { name := "cli", qualifier := "OptionParameter", methodTag := "Cli", multiValued := true } ]

/-- Whether an annotation is the qualifier of the domain. -/
def matchesAnnotation (d : Domain) (a : Annotation) : Bool := a.isType d.qualifier

/-- The type that a lookup yields for a value that is wanted as `target`: a list of strings for a
list in a domain of several values, else one string. -/
def sourceType (d : Domain) (target : TypeRef) : TypeRef :=
  if d.multiValued && target.isNamed TypeRef.listName then .listOf .string else .string

def text (d : Domain) : String := d.name ++ " (@" ++ d.qualifier ++ ")"

instance : ToString Domain := ⟨text⟩

end Domain

end Wiring
