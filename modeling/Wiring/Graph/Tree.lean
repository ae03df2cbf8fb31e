import Wiring.Graph.Basic

/-!
# Dependency trees

A graph drawn from a root: below each type the types that it needs, in name order. A type that the
path from the root has met before is not drawn again but marked as a circular reference.
-/

namespace Wiring.Graph

/-- What a line of a tree shows. -/
inductive Label
  | node (n : Node)
  /-- The mark below a type that the path from the root has met before. -/
  | circular
deriving DecidableEq, Repr

def Label.text : Label → String
  | node n => n.text
  | circular => "(circular reference)"

/-- A line of a tree below its root. -/
structure Line where
  /-- For each branch that the line stands in, outermost first, whether it is the last of its
  siblings. -/
  margin : List Bool
  /-- Whether the line itself is the last of its siblings. -/
  last : Bool
  label : Label
deriving DecidableEq, Repr

namespace Line

/-- A branch goes on beside what is below it, unless it is the last. -/
def stem (last : Bool) : String := if last then "    " else "│   "

def text (l : Line) : String :=
  String.join (l.margin.map stem) ++ (if l.last then "└── " else "├── ") ++ l.label.text

def isCircular (l : Line) : Bool := l.label = .circular

end Line

/-- The lines of branches beside each other, drawn one by one. -/
def siblings (draw : Bool → Node → List Line) : List Node → List Line
  | [] => []
  | n :: rest => draw rest.isEmpty n ++ siblings draw rest

/-- The lines of a branch to `n` below the types in `path`. -/
def branch (g : Graph) (path : List String) (margin : List Bool) (last : Bool) (n : Node) :
    List Line :=
  let inner := margin ++ [last]
  if hs : n.name ∈ path then [⟨margin, last, .node n⟩, ⟨inner, true, .circular⟩]
  else if hk : n.name ∈ g.names then
    have := BreadthFirst.unseen_cons_lt hk hs
    ⟨margin, last, .node n⟩ :: siblings (branch g (n.name :: path) inner) (g.direct n.name)
  else [⟨margin, last, .node n⟩]
termination_by BreadthFirst.unseen g.names path

/-- The lines of the tree below its root. -/
def lines (g : Graph) (root : String) : List Line :=
  siblings (g.branch [root] []) (g.direct root)

/-- The text of the tree below `root`, line by line; none if it is not in the graph. -/
def treeLines (g : Graph) (root : String) : List String :=
  match g.node? root with
  | none => []
  | some n => n.text :: (g.lines root).map Line.text

def tree (g : Graph) (root : String) : String :=
  String.join ((g.treeLines root).map (· ++ "\n"))

end Wiring.Graph
