import Mathlib.Data.List.Forall2
import Wiring.Proofs.Graph.Printing
import Wiring.Proofs.Graph.Trails

/-!
# Trees as trails

The lines of a tree are those of the trails from its root, one trail after another: a line for the
type at the end of the trail, as far to the right as the trail is long, and the mark below it if the
trail came to this type before. So a type that several others need is drawn below each of them, with
all that it needs.
-/

namespace Wiring.Graph

open Relation (ReflTransGen)

variable {g : Graph} {a b root : String} {path p l : List String} {margin : List Bool}
  {last : Bool} {n : Node} {ls : List Line}

/-! ## The lines of a trail -/

/-- How many branches a line stands in, its own among them. -/
def Line.depth (l : Line) : Nat := l.margin.length + 1

/-- Whether `b` is the last by name of the types that `a` needs. -/
def isLast (g : Graph) (a b : String) : Bool := (g.direct a).getLast?.any (·.name == b)

/-- Whether each type on a path, after the first one, is the last of its siblings. -/
def turns (g : Graph) : List String → List Bool
  | a :: b :: p => g.isLast a b :: turns g (b :: p)
  | _ => []

/-- The lines of a trail: the type at its end and, if the trail came to it before, the mark. -/
inductive Shows (g : Graph) (root : String) : List String → List Line → Prop
  | new {p : List String} {margin : List Bool} {last : Bool} {n : Node}
    (hturns : g.turns (root :: p) = margin ++ [last]) (hlast : p.getLast? = some n.name)
    (hnode : g.node? n.name = some n) (hnew : n.name ∉ root :: p.dropLast) :
    Shows g root p [⟨margin, last, .node n⟩]
  | again {p : List String} {margin : List Bool} {last : Bool} {n : Node}
    (hturns : g.turns (root :: p) = margin ++ [last]) (hlast : p.getLast? = some n.name)
    (hnode : g.node? n.name = some n) (hagain : n.name ∈ root :: p.dropLast) :
    Shows g root p [⟨margin, last, .node n⟩, ⟨margin ++ [last], true, .circular⟩]

/-- The lines at the end of a trail that goes on from `a` below the types in `path`. -/
def drawn (g : Graph) (path : List String) (margin : List Bool) (a : String) :
    List String → List Line
  | [] => []
  | [b] =>
    match g.node? b with
    | none => []
    | some n =>
      ⟨margin, g.isLast a b, .node n⟩ ::
        if b ∈ path then [⟨margin ++ [g.isLast a b], true, .circular⟩] else []
  | b :: c :: p => drawn g (b :: path) (margin ++ [g.isLast a b]) b (c :: p)

theorem length_stem : (Line.stem last).length = 4 := by
  cases last <;> rfl

/-- A line is indented by four characters for each branch that it stands in. -/
theorem Line.exists_indent (l : Line) :
    ∃ indent, l.text = indent ++ l.label.text ∧ indent.length = 4 * l.depth := by
  refine ⟨_, rfl, ?_⟩
  have hstems : (l.margin.map Line.stem).map String.length = List.replicate l.margin.length 4 := by
    simp [List.map_map, Function.comp_def, length_stem, List.map_const']
  have hconnector : (if l.last then "└── " else "├── ").length = 4 := by
    cases l.last <;> rfl
  rw [String.length_append, String.length_join, hstems, hconnector, Line.depth, List.sum_replicate_nat]
  omega

theorem length_turns : (g.turns (a :: p)).length = p.length := by
  induction p generalizing a with
  | nil => rfl
  | cons b p ih => rw [turns, List.length_cons, List.length_cons, ih]

theorem turns_concat (h : (root :: l).getLast? = some a) :
    g.turns (root :: (l ++ [b])) = g.turns (root :: l) ++ [g.isLast a b] := by
  induction l generalizing root with
  | nil =>
    cases h
    rfl
  | cons x l ih =>
    rw [List.getLast?_cons_cons] at h
    rw [List.cons_append, turns, turns, ih h, List.cons_append]

/-- A trail shows as the lines that are drawn at its end. -/
theorem GoesOn.shows (hg : g.Closed) (hp : g.GoesOn path (b :: p)) (hb : b ∈ g.names)
    (hpath : ∀ x, x ∈ path ↔ x ∈ root :: l) (hlast : (root :: l).getLast? = some a)
    (hmargin : g.turns (root :: l) = margin) :
    g.Shows root (l ++ b :: p) (g.drawn path margin a (b :: p)) := by
  induction p generalizing path b l a margin with
  | nil =>
    obtain ⟨n, hn⟩ := exists_node?_of_mem_names hb
    cases name_of_node? hn
    have hturns : g.turns (root :: (l ++ [n.name])) = margin ++ [g.isLast a n.name] := by
      rw [turns_concat hlast, hmargin]
    have hend : (l ++ [n.name]).getLast? = some n.name := by simp
    by_cases hs : n.name ∈ path
    · simp only [drawn, hn, if_pos hs]
      refine .again hturns hend hn ?_
      rwa [List.dropLast_concat, ← hpath]
    · simp only [drawn, hn, if_neg hs]
      refine .new hturns hend hn ?_
      rwa [List.dropLast_concat, ← hpath]
  | cons c p ih =>
    obtain ⟨_, hedge, hp⟩ := hp.of_cons
    rw [drawn, List.append_cons]
    refine ih hp (hg b c hedge).2 (fun x => ?_) ?_ ?_
    · rw [List.mem_cons, hpath]
      simp only [List.mem_cons, List.mem_append, List.not_mem_nil, or_false]
      tauto
    · simp [List.getLast?_cons]
    · rw [turns_concat hlast, hmargin]

/-! ## The lines of a tree -/

section

variable {draw : Bool → Node → List Line} {ns : List Node}

theorem any_getLast?_cons (hn : n.name ∉ ns.map (·.name)) :
    (n :: ns).getLast?.any (·.name == n.name) = ns.isEmpty := by
  cases ns with
  | nil => simp
  | cons m ns =>
    rw [List.getLast?_cons_cons, List.isEmpty_cons, Option.any_eq_false]
    intro m' hm'
    have hne : m'.name ≠ n.name :=
      fun hname => hn (List.mem_map.2 ⟨m', List.mem_of_getLast? hm', hname⟩)
    simpa using hne

/-- Branches beside each other, if no two of them have one name. -/
theorem siblings_eq (hns : (ns.map (·.name)).Nodup) :
    siblings draw ns = ns.flatMap fun n => draw (ns.getLast?.any (·.name == n.name)) n := by
  induction ns with
  | nil => rfl
  | cons n ns ih =>
    obtain ⟨hn, hns⟩ := List.nodup_cons.1 hns
    rw [siblings, List.flatMap_cons, ih hns, any_getLast?_cons hn]
    congr 1
    refine List.flatMap_congr fun m hm => ?_
    rw [List.getLast?_cons_of_ne_nil (List.ne_nil_of_mem hm)]

end

section

variable (hg : g.Closed) (hedges : g.edges.Nodup)

include hg hedges

theorem siblings_direct (draw : Bool → Node → List Line) (a : String) :
    siblings draw (g.direct a) = (g.direct a).flatMap fun n => draw (g.isLast a n.name) n :=
  siblings_eq (nodup_names_direct hg hedges a)

/-- **A branch** below `a` is drawn trail by trail. -/
theorem branch_eq_flatMap (path : List String) (margin : List Bool) (last : Bool) (n : Node) :
    ∀ a, last = g.isLast a n.name → g.node? n.name = some n →
      g.branch path margin last n =
        (g.trailsBelow path n.name).flatMap (g.drawn path margin a) := by
  induction path, margin, last, n using branch.induct g with
  | case1 path margin last n hs =>
    intro a hlast hn
    rw [branch_of_mem hs, trailsBelow_of_mem hs, List.flatMap_singleton, drawn, hn, hlast]
    simp [hs]
  | case2 path margin last n inner hs hk _ ih =>
    intro a hlast hn
    have hchild : ∀ m ∈ g.direct n.name,
        g.branch (n.name :: path) inner (g.isLast n.name m.name) m =
          (g.trailsBelow (n.name :: path) m.name).flatMap fun p =>
            g.drawn path margin a (n.name :: p) := by
      intro m hm
      rw [ih _ _ _ rfl (node?_of_mem_direct hm)]
      refine List.flatMap_congr fun p hp => ?_
      obtain ⟨q, rfl⟩ := exists_cons_of_mem_trailsBelow hp
      rw [drawn, ← hlast]
    rw [branch_of_new hs hk, trailsBelow_of_new hs hk, List.flatMap_cons,
      List.flatMap_map, List.flatMap_assoc, siblings_direct hg hedges, drawn, hn, ← hlast,
      List.flatMap_congr hchild]
    simp [hs]
  | case3 path margin last n hs hk =>
    intro a hlast hn
    rw [branch_of_unknown hs hk, trailsBelow_of_unknown hs hk, List.flatMap_singleton, drawn, hn,
      hlast]
    simp [hs]

/-- **The lines of a tree** are those of its trails, one after another. -/
theorem lines_eq_flatMap (root : String) :
    g.lines root = (g.trails root).flatMap (g.drawn [root] [] root) := by
  rw [lines, siblings_direct hg hedges, trails, List.flatMap_assoc]
  exact List.flatMap_congr fun n hn =>
    branch_eq_flatMap hg hedges _ _ _ n root rfl (node?_of_mem_direct hn)

end

theorem IsTrail.shows (hg : g.Closed) (hp : g.IsTrail root p) :
    g.Shows root p (g.drawn [root] [] root p) := by
  obtain ⟨b, q, rfl⟩ := List.exists_cons_of_ne_nil hp.ne_nil
  obtain ⟨hedge, hp⟩ := isTrail_cons_iff.1 hp
  exact hp.shows (l := []) hg (hg root b hedge).2 (fun _ => Iff.rfl) rfl rfl

/-- The first line of a trail stands as far to the right as the trail is long. -/
theorem Shows.depth_eq (h : g.Shows root p ls) : ∃ l marks, ls = l :: marks ∧ l.depth = p.length := by
  have hlength : ∀ {margin : List Bool} {last : Bool}, g.turns (root :: p) = margin ++ [last] →
      margin.length + 1 = p.length := by
    intro margin last hturns
    rw [← length_turns (g := g) (a := root), hturns, List.length_append, List.length_singleton]
  cases h with
  | new hturns => exact ⟨_, _, rfl, hlength hturns⟩
  | again hturns => exact ⟨_, _, rfl, hlength hturns⟩

/-- A trail goes on to everything that its last type needs, unless it came to that type before. -/
theorem IsTrail.concat_iff (hp : g.IsTrail root p) (hlast : p.getLast? = some a)
    (hnew : a ∉ root :: p.dropLast) : g.IsTrail root (p ++ [b]) ↔ g.Edge a b := by
  obtain ⟨l, rfl⟩ := List.getLast?_eq_some_iff.1 hlast
  rw [List.dropLast_concat] at hnew
  constructor
  · intro h
    have hchain : (root :: (l ++ [a]) ++ [b]).IsChain g.Edge := h.isChain
    exact (List.isChain_append.1 hchain).2.2 a (by simp [List.getLast?_cons]) b rfl
  · intro hedge
    have hnodup := hp.nodup
    rw [List.dropLast_concat] at hnodup
    have hchain : (root :: (l ++ [a]) ++ [b]).IsChain g.Edge := by
      refine List.isChain_append.2 ⟨hp.isChain, List.isChain_singleton b, fun x hx y hy => ?_⟩
      cases hy
      have hx : a = x := by simpa [List.getLast?_cons] using hx
      rwa [← hx]
    refine ⟨⟨by simp, hchain⟩, ?_⟩
    rw [List.dropLast_concat, ← List.cons_append, ← List.concat_eq_append]
    exact hnodup.concat hnew

/-- How the tree of a root tells the trails from it. -/
structure Drawn (g : Graph) (root : String) : Prop where
  tree_eq : ∃ n, g.node? root = some n ∧
    g.tree root = String.join ((n.text :: (g.lines root).map Line.text).map (· ++ "\n"))
  /-- The printer ends, has printed the tree, and has taken every type but the root off the path. -/
  printTree_eq : g.printTree root {} = some ((), ⟨g.tree root, {root}⟩)
  /-- The lines are those of the trails, depth first and in name order. -/
  blocks : ∃ ps blocks, (∀ p, p ∈ ps ↔ g.IsTrail root p) ∧ ps.Pairwise (· < ·) ∧
    List.Forall₂ (g.Shows root) ps blocks ∧ g.lines root = blocks.flatten
  depth_eq : ∀ p ls, g.Shows root p ls → ∃ l marks, ls = l :: marks ∧ l.depth = p.length ∧
    ∃ indent, l.text = indent ++ l.label.text ∧ indent.length = 4 * p.length
  /-- There is a mark exactly if the root leads to a cycle. -/
  exists_isCircular_iff : (∃ l ∈ g.lines root, l.isCircular) ↔
    ∃ c, g.IsCycle c ∧ ∃ a ∈ c, ReflTransGen g.Edge root a
  /-- Each trail to a type goes on to all that the type needs, if it is new on that trail. -/
  goesOn_iff : ∀ p a b, g.IsTrail root p → p.getLast? = some a → a ∉ root :: p.dropLast →
    (g.IsTrail root (p ++ [b]) ↔ g.Edge a b)

/-- **The tree of a graph of dependencies** tells the trails from its root. -/
theorem drawn_ofDependencies (ds : List Dependency) (hroot : root ∈ (ofDependencies ds).names) :
    (ofDependencies ds).Drawn root := by
  have hclosed := closed_ofDependencies ds
  have hedges := (records_ofDependencies ds).nodup_edges
  generalize ofDependencies ds = g at hroot hclosed hedges
  obtain ⟨n, hn⟩ := exists_node?_of_mem_names hroot
  exact
    { tree_eq := ⟨n, hn, by rw [tree, treeLines, hn]⟩
      printTree_eq := printTree_eq hclosed hn
      blocks := by
        refine ⟨g.trails root, (g.trails root).map (g.drawn [root] [] root),
          fun p => mem_trails_iff hclosed, pairwise_trails hclosed hedges root, ?_, ?_⟩
        · rw [List.forall₂_map_right_iff, List.forall₂_same]
          exact fun p hp => ((mem_trails_iff hclosed).1 hp).shows hclosed
        · rw [lines_eq_flatMap hclosed hedges, List.flatMap_def]
      depth_eq := by
        intro p ls h
        obtain ⟨l, marks, hls, hdepth⟩ := h.depth_eq
        refine ⟨l, marks, hls, hdepth, ?_⟩
        rw [← hdepth]
        exact l.exists_indent
      exists_isCircular_iff := by
        simp only [Graph.exists_isCircular_iff hclosed, needs_self_iff]
        constructor
        · rintro ⟨a, hreach, c, hc, ha⟩
          exact ⟨c, hc, a, ha, hreach⟩
        · rintro ⟨c, hc, a, ha, hreach⟩
          exact ⟨a, hreach, c, hc, ha⟩
      goesOn_iff := fun p a b hp => hp.concat_iff }

/-- In the example two trails lead to the server, and on each of them it is new. -/
theorem drawn_example :
    "app.App" ∈ (ofDependencies exampleDependencies).names ∧
      (ofDependencies exampleDependencies).Drawn "app.App" ∧
      (ofDependencies exampleDependencies).IsTrail "app.App" ["app.Server"] ∧
      (ofDependencies exampleDependencies).IsTrail "app.App" ["app.Module", "app.Server"] ∧
      (ofDependencies exampleDependencies).IsTrail "app.App"
        ["app.Module", "app.Server", "app.Server"] := by
  refine ⟨by decide, drawn_ofDependencies exampleDependencies (by decide), ?_, ?_, ?_⟩
  all_goals exact ⟨⟨by decide, by decide⟩, by decide⟩

example :
    (ofDependencies [(⟨"A", none⟩, ⟨"B", none⟩), (⟨"B", none⟩, ⟨"A", none⟩)]).tree "A" =
      "A\n└── B\n    └── A\n        └── (circular reference)\n" := by
  cbv

end Wiring.Graph
