import Mathlib.Data.Finset.Basic
import Mathlib.Data.Finset.Dedup
import Wiring.Proofs.Graph.Tree

/-!
# Trees as they are printed

A tree is printed line by line behind what was printed before. All branches share one set of the
types on the path from the root: a branch adds its type to the set before it prints what is below it
and takes it out again when it is through. Nothing bounds this printer; it ends because it does not go
on below a type that is on the path. What it has printed then are the lines of the tree, and every
branch leaves the set as it was.
-/

namespace Wiring.Graph

variable {g : Graph} {path : List String} {margin : List Bool} {last : Bool} {n : Node}
  {ns : List Node} {name root : String}

/-! ## The printer -/

/-- What was printed so far, and the types on the path. -/
structure Printer where
  text : String := ""
  path : Finset String := ∅

/-- Steps of the printer. They have no result if they do not end. -/
abbrev Printing := StateT Printer Option

namespace Printing

def write (line : String) : Printing Unit := modify fun p => { p with text := p.text ++ line ++ "\n" }

/-- Puts a type on the path; tells whether it was not there before. -/
def enter (name : String) : Printing Bool := do
  let p ← get
  if name ∈ p.path then return false
  else
    set { p with path := insert name p.path }
    return true

def leave (name : String) : Printing Unit := modify fun p => { p with path := p.path.erase name }

end Printing

open Printing (write enter leave)

mutual

/-- Prints a branch to `n` behind this indentation. -/
def printBranch (g : Graph) (indent : String) (last : Bool) (n : Node) : Printing Unit := do
  write (indent ++ (if last then "└── " else "├── ") ++ n.text)
  let inner := indent ++ Line.stem last
  if ← enter n.name then
    g |>.printBranches inner (g.direct n.name)
    leave n.name
  else
    write (inner ++ "└── (circular reference)")
partial_fixpoint

/-- Prints branches beside each other. -/
def printBranches (g : Graph) (indent : String) (ns : List Node) : Printing Unit := do
  match ns with
  | [] => return
  | n :: rest =>
    g |>.printBranch indent rest.isEmpty n
    g |>.printBranches indent rest
partial_fixpoint

end

/-- Prints the tree below `root`, if it is in the graph. -/
def printTree (g : Graph) (root : String) : Printing Unit := do
  match g.node? root with
  | none => return
  | some n =>
    write n.text
    let _ ← enter root
    g.printBranches "" (g.direct root)

/-! ## What is printed -/

/-- Steps end, print this text and leave the path as it is. -/
def Prints (x : Printing Unit) (path : List String) (text : String) : Prop :=
  ∀ before, x ⟨before, path.toFinset⟩ = some ((), ⟨before ++ text, path.toFinset⟩)

/-- The text of some lines. -/
def linesText (ls : List Line) : String := String.join (ls.map (·.text ++ "\n"))

theorem linesText_cons (l : Line) (ls : List Line) :
    linesText (l :: ls) = l.text ++ "\n" ++ linesText ls := String.join_cons

theorem linesText_append (ls ls' : List Line) :
    linesText (ls ++ ls') = linesText ls ++ linesText ls' := by
  rw [linesText, List.map_append, String.join_append]
  rfl

theorem Prints.bind {x y : Printing Unit} {text text' : String} (hx : Prints x path text)
    (hy : Prints y path text') : Prints (do x; y) path (text ++ text') := by
  intro before
  show (x ⟨before, path.toFinset⟩).bind (fun r => y r.2) = _
  rw [hx before, Option.bind_some, hy, String.append_assoc]

theorem prints_write (path : List String) (line : String) : Prints (write line) path (line ++ "\n") :=
  fun before => by
    rw [← String.append_assoc]
    rfl

theorem enter_of_mem (h : name ∈ path) (before : String) :
    enter name ⟨before, path.toFinset⟩ = some (false, ⟨before, path.toFinset⟩) := by
  have hmem : name ∈ path.toFinset := List.mem_toFinset.2 h
  show (if name ∈ path.toFinset then (return false : Printing Bool) else _) _ = _
  rw [if_pos hmem]
  rfl

theorem enter_of_not_mem (h : name ∉ path) (before : String) :
    enter name ⟨before, path.toFinset⟩ = some (true, ⟨before, (name :: path).toFinset⟩) := by
  have hmem : name ∉ path.toFinset := mt List.mem_toFinset.1 h
  rw [List.toFinset_cons]
  show (if name ∈ path.toFinset then (return false : Printing Bool) else _) _ = _
  rw [if_neg hmem]
  rfl

theorem leave_cons (h : name ∉ path) (before : String) :
    leave name ⟨before, (name :: path).toFinset⟩ = some ((), ⟨before, path.toFinset⟩) := by
  have hmem : name ∉ path.toFinset := mt List.mem_toFinset.1 h
  show some ((), (⟨before, ((name :: path).toFinset).erase name⟩ : Printer)) = _
  rw [List.toFinset_cons, Finset.erase_insert hmem]

/-! ## Branches -/

theorem prints_nil (indent : String) : Prints (g.printBranches indent []) path "" := by
  intro before
  rw [printBranches, String.append_empty]
  rfl

/-- Branches beside each other are printed as they are drawn, if each of them is. -/
theorem prints_siblings {indent : String} {draw : Bool → Node → List Line}
    (h : ∀ last n, Prints (g.printBranch indent last n) path (linesText (draw last n)))
    (ns : List Node) : Prints (g.printBranches indent ns) path (linesText (siblings draw ns)) := by
  induction ns with
  | nil => exact prints_nil indent
  | cons n ns ih =>
    rw [printBranches, siblings, linesText_append]
    exact (h ns.isEmpty n).bind ih

/-- The line of a type that the path has met, and the mark below it. -/
theorem prints_branch_of_mem {indent : String} (hs : n.name ∈ path) :
    Prints (g.printBranch indent last n) path
      (indent ++ (if last then "└── " else "├── ") ++ n.text ++ "\n" ++
        (indent ++ Line.stem last ++ "└── (circular reference)" ++ "\n")) := by
  rw [printBranch]
  refine (prints_write path _).bind fun before => ?_
  show (enter n.name ⟨before, path.toFinset⟩).bind _ = _
  rw [enter_of_mem hs]
  exact prints_write path _ before

/-- The line of a new type, and what is printed below it with the type on the path. -/
theorem prints_branch_of_new {indent below : String} (hs : n.name ∉ path)
    (h : Prints (g.printBranches (indent ++ Line.stem last) (g.direct n.name)) (n.name :: path) below) :
    Prints (g.printBranch indent last n) path
      (indent ++ (if last then "└── " else "├── ") ++ n.text ++ "\n" ++ below) := by
  rw [printBranch]
  refine (prints_write path _).bind fun before => ?_
  show (enter n.name ⟨before, path.toFinset⟩).bind _ = _
  rw [enter_of_not_mem hs]
  show (g.printBranches _ _ ⟨before, (n.name :: path).toFinset⟩).bind (fun r => leave n.name r.2) = _
  rw [h before, Option.bind_some, leave_cons hs]

/-- A branch indents what is below it by its own stem. -/
theorem join_stem_concat (margin : List Bool) (last : Bool) :
    String.join ((margin ++ [last]).map Line.stem) =
      String.join (margin.map Line.stem) ++ Line.stem last := by
  rw [List.map_append, String.join_append]
  exact congrArg _ (by simp)

/-- **A branch is printed as it is drawn**, and leaves the path as it was. -/
theorem prints_branch (hg : g.Closed) (path : List String) (margin : List Bool) (last : Bool)
    (n : Node) :
    Prints (g.printBranch (String.join (margin.map Line.stem)) last n) path
      (linesText (g.branch path margin last n)) := by
  induction path, margin, last, n using branch.induct g with
  | case1 path margin last n hs =>
    have hmark : (⟨margin ++ [last], true, .circular⟩ : Line).text =
        String.join (margin.map Line.stem) ++ Line.stem last ++ "└── (circular reference)" := by
      have hliteral : "└── " ++ "(circular reference)" = "└── (circular reference)" := by decide
      rw [← hliteral, ← String.append_assoc, ← join_stem_concat]
      rfl
    have hend : linesText [] = "" := rfl
    rw [branch_of_mem hs, linesText_cons, linesText_cons, hmark, hend, String.append_empty]
    exact prints_branch_of_mem hs
  | case2 path margin last n inner hs hk _ ih =>
    rw [branch_of_new hs hk, linesText_cons]
    refine prints_branch_of_new hs ?_
    rw [← join_stem_concat]
    exact prints_siblings ih (g.direct n.name)
  | case3 path margin last n hs hk =>
    have hnothing : g.direct n.name = [] := by
      rw [direct, successors_eq_nil hg hk, List.filterMap_nil, List.mergeSort_nil]
    rw [branch_of_unknown hs hk, linesText_cons]
    refine prints_branch_of_new hs ?_
    rw [hnothing]
    exact prints_nil _

/-- **The tree that is printed** is the tree of the lines, and only the root is left on the path. -/
theorem printTree_eq (hg : g.Closed) (hroot : g.node? root = some n) :
    g.printTree root {} = some ((), ⟨g.tree root, {root}⟩) := by
  have hbelow : Prints (g.printBranches "" (g.direct root)) [root] (linesText (g.lines root)) :=
    prints_siblings (prints_branch hg [root] []) (g.direct root)
  have htree : g.tree root = n.text ++ "\n" ++ linesText (g.lines root) := by
    rw [tree, treeLines, hroot, List.map_cons, String.join_cons, List.map_map]
    rfl
  unfold printTree
  rw [hroot, htree]
  exact hbelow (n.text ++ "\n")

end Wiring.Graph
