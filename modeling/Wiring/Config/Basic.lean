import Wiring.Data.Declaration
import Wiring.Error.Report

/-!
# Configurations

A configuration adds domains to the builtin ones or replaces them, holds the properties that
templates refer to, and says whether qualifier names are templates at all.
-/

namespace Wiring

structure Config where
  domains : List Domain := []
  /-- The properties in name order. -/
  properties : List (String × String) := []
  expandNames : Bool := true
deriving DecidableEq, Repr, Inhabited

namespace Config

def decoder : Decoder Config :=
  .record
    [ .defaulted "domains" (.list Domain.decoder) fun c domains => { c with domains },
      .defaulted "system_properties" (.tableOf .string) fun c properties =>
        { c with properties },
      .defaulted "expand_names" .boolean fun c expandNames => { c with expandNames } ]
    {}

def data (c : Config) : Data :=
  .table
    [ ("domains", .ofList Domain.data c.domains),
      ("system_properties", .table (c.properties.map fun (name, value) => (name, .string value))),
      ("expand_names", .boolean c.expandNames) ]

/-- Checks some domains, of which `before` have been checked already. -/
def checkDomains (before : List Domain) : List Domain → Except Error Unit
  | [] => .ok ()
  | d :: ds =>
    if d.name.isEmpty || d.qualifier.isEmpty then
      .error (.config ("domain #" ++ toString (before.length + 1) ++
        " needs a name and a qualifier"))
    else if before.any (·.name == d.name) then
      .error (.config ("domain '" ++ d.name ++ "' is declared more than once"))
    else checkDomains (before ++ [d]) ds

/-- Checks that each domain has a name of its own and a qualifier. -/
def check (c : Config) : Except Error Unit := checkDomains [] c.domains

/-- Puts a domain in the place of the first of its name, or after all if there is none. -/
def mergeDomain (domains : List Domain) (d : Domain) : List Domain :=
  match domains with
  | [] => [d]
  | e :: es => if e.name = d.name then d :: es else e :: mergeDomain es d

/-- The builtin domains, as the configuration replaces and extends them. -/
def allDomains (c : Config) : List Domain := c.domains.foldl mergeDomain Domain.builtin

/-- The domain of this name. -/
def domain? (c : Config) (name : String) : Except Failure Domain :=
  match c.allDomains.find? (·.name == name) with
  | some d => .ok d
  | none => .error <| .ofMessage <|
    "Unknown domain '" ++ name ++ "' (known domains: " ++
      ", ".intercalate (c.allDomains.map (·.name)) ++ ")"

/-- The domains of these names; all domains if there are no names. -/
def selectDomains (c : Config) (names : List String) : Except Failure (List Domain) :=
  if names.isEmpty then .ok c.allDomains else names.mapM c.domain?

def property (c : Config) (name : String) : Option String := c.properties.lookup name

end Config

end Wiring
