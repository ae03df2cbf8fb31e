import Wiring.Declaration
import Wiring.Order.Ascending
import Wiring.Order.BreadthFirst
import Wiring.Text.Similarity

/-!
# Models

A model holds the declared types, each under its own name, in ascending order of the names.
-/

namespace Wiring

/-- Declared types compare by name. -/
def TypeDecl.compareName (a b : TypeDecl) : Ordering := compare a.name b.name

instance : Std.TransCmp TypeDecl.compareName where
  eq_swap {a b} := Std.OrientedOrd.eq_swap (a := a.name) (b := b.name)
  isLE_trans {a b c} := Std.TransOrd.isLE_trans (a := a.name) (b := b.name) (c := c.name)

structure Model where
  types : List TypeDecl := []
  ascending : Ascending.IsAscending TypeDecl.compareName types := by
    exact List.Pairwise.nil

namespace Model

def empty : Model := {}

/-- Adds a declaration, in place of one of the same name if there is one. -/
def insert (m : Model) (d : TypeDecl) : Model where
  types := Ascending.insert TypeDecl.compareName d m.types
  ascending := Ascending.isAscending_insert m.ascending

def insertAll (m : Model) (ds : List TypeDecl) : Model :=
  ds.foldl insert m

def get? (m : Model) (name : String) : Option TypeDecl :=
  m.types.find? (·.name == name)

def contains (m : Model) (name : String) : Bool :=
  (m.get? name).isSome

def size (m : Model) : Nat := m.types.length

def names (m : Model) : List String := m.types.map (·.name)

/-- The declaration of the class that a reference names, if it names one that is declared. -/
def resolve? (m : Model) (t : TypeRef) : Option TypeDecl :=
  t.erasure?.bind m.get?

/-- The declared components, in name order. -/
def components (m : Model) : List TypeDecl :=
  m.types.filter (·.kind == .component)

/-- The declared superclass of a type. -/
def parent? (m : Model) (d : TypeDecl) : Option TypeDecl :=
  d.superclass.bind m.get?

/-- The type and its superclasses, nearest first, up to the first one that is not declared or was
met before. -/
def lineage (m : Model) (name : String) : List TypeDecl :=
  BreadthFirst.visit (·.name) (fun d => (m.parent? d).toList) m.names [] (m.get? name).toList

/-- The least similarity, exclusive, at which one name is suggested for another. -/
def suggestionThreshold : Float := 0.85

/-- Of two scored names the better one; the second of equals. -/
def better (best : Option (Float × String)) (candidate : Float × String) :
    Option (Float × String) :=
  match best with
  | none => some candidate
  | some (score, name) => if candidate.1 < score then some (score, name) else some candidate

/-- The declared name most similar to `name`, if one is similar enough. -/
def closest? (m : Model) (name : String) : Option String :=
  let scored := m.names.map fun candidate => (Text.similarity name candidate, candidate)
  ((scored.filter fun s => s.1 > suggestionThreshold).foldl better none).map (·.2)

end Model

end Wiring
