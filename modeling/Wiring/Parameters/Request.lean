import Wiring.Parameters.Representation
import Wiring.Site.Basic

/-!
Requests: injection sites that ask for a parameter by name. The name is the one that the qualifier
carries, after expansion.
-/

namespace Wiring

structure Request where
  site : Site
  name : String
deriving DecidableEq, Repr, Inhabited

namespace Request

/-- The request of a site for the parameter of this name. -/
def ofSite (site : Site) (name : String) : Request := ⟨site, name⟩

def default (r : Request) : Option String := r.site.default

def nullable (r : Request) : Bool := r.site.nullable

/-- Whether the request can do neither with null nor with a default. -/
def required (r : Request) : Bool := !r.nullable && r.default.isNone

def element (r : Request) : String := r.site.element

/-- The representation that the request asks for. -/
def representation (r : Request) : Representation :=
  ⟨r.site.providedType, r.name, r.default⟩

end Request

end Wiring
