import Wiring.Declaration
import Wiring.Order.BreadthFirst

/-!
# Dependency graphs

The nodes of a dependency graph are types, each under its own name; an edge leads from a type to one
that it needs.
-/

namespace Wiring

/-- A type in a dependency graph; the kind is known only of declared types. -/
structure Node where
  name : String
  kind : Option Kind
deriving DecidableEq, Repr, Inhabited

/-- The name, and the kind unless it is an ordinary class. -/
def Node.text (n : Node) : String :=
  match n.kind with
  | none | some .class => n.name
  | some kind => n.name ++ " [" ++ kind.name ++ "]"

/-- Nodes and edges in the order of their first mention. -/
structure Graph where
  nodes : List Node
  edges : List (String × String)
deriving DecidableEq, Repr

namespace Graph

def empty : Graph := ⟨[], []⟩

def node? (g : Graph) (name : String) : Option Node :=
  g.nodes.find? (·.name == name)

def contains (g : Graph) (name : String) : Bool := (g.node? name).isSome

def names (g : Graph) : List String := g.nodes.map (·.name)

def isEmpty (g : Graph) : Bool := g.nodes.isEmpty

/-- Adds a node unless there is one of that name, whose kind then stays. -/
def addNode (g : Graph) (n : Node) : Graph :=
  if g.contains n.name then g else { g with nodes := g.nodes ++ [n] }

/-- Adds the edge from one type to another, and the two as nodes, so far as they are new. -/
def addDependency (g : Graph) (source target : Node) : Graph :=
  let g := (g.addNode source).addNode target
  let edge := (source.name, target.name)
  if edge ∈ g.edges then g else { g with edges := g.edges ++ [edge] }

/-- The names that edges from `name` lead to. -/
def successors (g : Graph) (name : String) : List String :=
  (g.edges.filter (·.1 == name)).map (·.2)

/-- The types that `name` needs itself, in name order. -/
def direct (g : Graph) (name : String) : List Node :=
  ((g.successors name).filterMap g.node?).mergeSort fun a b => a.name ≤ b.name

/-- The names of the types that `name` needs, itself or through others. -/
def transitive (g : Graph) (name : String) : List String :=
  BreadthFirst.visit id g.successors g.names [] (g.successors name)

/-- Whether some type needs itself, perhaps through others. -/
def hasCycles (g : Graph) : Bool :=
  g.names.any fun name => name ∈ g.transitive name

end Graph

end Wiring
