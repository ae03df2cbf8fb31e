import Wiring.TypeRef.Basic

/-!
# Representations

A representation is one form in which a parameter is asked for: a type and a default under the name
of the parameter. Representations are ordered by name, then by default with no default first, then
by the canonical text of the type.
-/

namespace Wiring

structure Representation where
  type : TypeRef
  name : String
  default : Option String
deriving DecidableEq, Repr, Inhabited

namespace Representation

/-- No default comes before any default. -/
def compareDefault : Option String → Option String → Ordering
  | none, none => .eq
  | none, some _ => .lt
  | some _, none => .gt
  | some a, some b => compare a b

def compare (a b : Representation) : Ordering :=
  (Ord.compare a.name b.name).then <|
    (compareDefault a.default b.default).then <| Ord.compare a.type.text b.type.text

/-- Whether two representations have the same place in the order. -/
def same (a b : Representation) : Bool := a.compare b == .eq

/-- The same name and default at another type. -/
def withType (r : Representation) (type : TypeRef) : Representation := { r with type }

def text (r : Representation) : String :=
  r.type.text ++ " " ++ r.name ++
  match r.default with
  | some default => " (default \"" ++ default ++ "\")"
  | none => ""

instance : ToString Representation := ⟨text⟩

end Representation

end Wiring
