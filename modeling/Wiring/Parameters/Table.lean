import Wiring.Diagnostic
import Wiring.Domain
import Wiring.Order.Ascending
import Wiring.Parameters.Request

/-!
# Parameter tables

The requests of one domain, once grouped by name and once by representation. One request that
demands a value makes the whole parameter required; what other requests of that name say about null
and defaults is then without effect, and a warning says so. Every representation is derived from
what a lookup of its domain yields, so a table holds the representation at the lookup's type beside
each that was asked for, with no requests if nobody asked for it.
-/

namespace Wiring

/-- A parameter and the requests for it. -/
structure ParameterGroup where
  name : String
  requests : List Request
deriving DecidableEq, Repr, Inhabited

namespace ParameterGroup

/-- Whether some request demands a value. -/
def required (g : ParameterGroup) : Bool := g.requests.any (·.required)

/-- Whether every request accepts null. -/
def nullable (g : ParameterGroup) : Bool := g.requests.all (·.nullable)

def warning (message : String) (r : Request) : Diagnostic :=
  ⟨.warning, message, some r.element⟩

/-- The warning to a request that demands nothing, where `demanding` demands a value. -/
def ignoredWarning (demanding r : Request) : Diagnostic :=
  warning ("Parameter '" ++ r.name ++ "' is effectively required because " ++ demanding.element ++
    " demands a value; " ++ (if r.default.isSome then "its default value" else "its nullability") ++
    " is ignored") r

/-- The warning to a request that accepts null, where `refusing` does not. -/
def mixedWarning (refusing r : Request) : Diagnostic :=
  warning ("Parameter '" ++ r.name ++ "' does not accept null at " ++ refusing.element ++
    ", but this site does; " ++
    (if r.default.isSome then "its default value applies when the value is unset"
      else "its provider returns null when the value is unset")) r

/-- The warnings to the requests that disagree with the rest of the group. -/
def warnings (g : ParameterGroup) : List Diagnostic :=
  match g.requests.find? (·.required), g.requests.find? (!·.nullable) with
  | some demanding, _ => (g.requests.filter (!·.required)).map (ignoredWarning demanding)
  | none, some refusing => (g.requests.filter (·.nullable)).map (mixedWarning refusing)
  | none, none => []

end ParameterGroup

/-- A representation, the requests for it, and whether its parameter is required. -/
structure RepresentationGroup where
  key : Representation
  requests : List Request
  required : Bool
deriving DecidableEq, Repr, Inhabited

namespace RepresentationGroup

/-- Whether null is accepted: by every request or, if there is none, by the lack of anything that
stands in its way. -/
def nullable (g : RepresentationGroup) : Bool :=
  if g.requests.isEmpty then !g.required && g.key.default.isNone
  else g.requests.all (·.nullable)

/-- The element of the first request. -/
def element? (g : RepresentationGroup) : Option String := g.requests.head?.map (·.element)

/-- The warning about a representation whose requests accept null although its parameter is
required. -/
def warnings (g : RepresentationGroup) : List Diagnostic :=
  if g.nullable && g.required then
    [⟨.warning, "Representation " ++ g.key.text ++ " is nullable but parameter '" ++ g.key.name ++
      "' is effectively required; it will never be null", g.element?⟩]
  else []

end RepresentationGroup

/-- The groups of some requests, each list in the order of its keys. -/
structure ParameterTable where
  parameters : List ParameterGroup
  representations : List RepresentationGroup
deriving DecidableEq, Repr, Inhabited

namespace ParameterTable

/-- The requests for the parameter `name`. -/
def parameterGroup (requests : List Request) (name : String) : ParameterGroup :=
  ⟨name, requests.filter (·.name == name)⟩

/-- The requests for the representation `key`. -/
def representationGroup (requests : List Request) (key : Representation) : RepresentationGroup where
  key
  requests := requests.filter (·.representation.same key)
  required := (parameterGroup requests key.name).required

/-- The names that are asked for, in order. -/
def names (requests : List Request) : List String :=
  Ascending.ofList compare (requests.map (·.name))

/-- The representations that are asked for, in order. -/
def requestedKeys (requests : List Request) : List Representation :=
  Ascending.ofList Representation.compare (requests.map (·.representation))

/-- The representation that a lookup of the domain yields, from which `key` is derived. -/
def sibling (d : Domain) (key : Representation) : Representation :=
  key.withType (d.sourceType key.type)

/-- The representations that are asked for and those that they are derived from, in order. -/
def keys (d : Domain) (requests : List Request) : List Representation :=
  let requested := requestedKeys requests
  Ascending.ofList Representation.compare (requested ++ requested.map (sibling d))

/-- The table of some requests of a domain. -/
def build (d : Domain) (requests : List Request) : ParameterTable where
  parameters := (names requests).map (parameterGroup requests)
  representations := (keys d requests).map (representationGroup requests)

/-- The warnings about some requests: first parameter by parameter, then representation by
representation. -/
def warnings (requests : List Request) : List Diagnostic :=
  (names requests).flatMap (fun name => (parameterGroup requests name).warnings) ++
  (requestedKeys requests).flatMap fun key => (representationGroup requests key).warnings

def parameter? (t : ParameterTable) (name : String) : Option ParameterGroup :=
  t.parameters.find? (·.name == name)

def representation? (t : ParameterTable) (key : Representation) : Option RepresentationGroup :=
  t.representations.find? (·.key.same key)

def isEmpty (t : ParameterTable) : Bool := t.parameters.isEmpty

end ParameterTable

end Wiring
