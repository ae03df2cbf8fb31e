import Mathlib.Logic.Relation
import Wiring.Graph.Basic
import Wiring.Proofs.Order.BreadthFirst

/-!
# What types need

In a graph a type needs those that its edges lead to, and what these need in turn. `transitive` lists
the types that a type needs, `hasCycles` says whether some type needs itself. Both rely on graphs
whose edges lead from node to node, which adding nodes and dependencies does not change.
-/

namespace Wiring.Graph

variable {g : Graph} {a b name : String} {n source target : Node}

/-- An edge leads from one type to another. -/
def Edge (g : Graph) (a b : String) : Prop := (a, b) ∈ g.edges

instance : Decidable (g.Edge a b) := inferInstanceAs (Decidable ((a, b) ∈ g.edges))

/-- Edges lead from one type to another, one or more of them. -/
def Needs (g : Graph) : String → String → Prop := Relation.TransGen g.Edge

/-- Edges lead from node to node. -/
def Closed (g : Graph) : Prop := ∀ a b, g.Edge a b → a ∈ g.names ∧ b ∈ g.names

/-! ## Nodes -/

theorem contains_iff : g.contains name ↔ name ∈ g.names := by
  simp [contains, node?, names]

theorem name_of_node? (h : g.node? name = some n) : n.name = name := by
  have := List.find?_some h
  simpa using this

theorem exists_node?_of_mem_names (h : name ∈ g.names) : ∃ n, g.node? name = some n :=
  Option.isSome_iff_exists.1 (contains_iff.2 h)

theorem edges_addNode : (g.addNode n).edges = g.edges := by
  unfold addNode
  split <;> rfl

theorem mem_names_addNode_iff : name ∈ (g.addNode n).names ↔ name ∈ g.names ∨ name = n.name := by
  unfold addNode
  split
  · next h =>
    constructor
    · exact .inl
    · rintro (h | rfl)
      · exact h
      · exact contains_iff.1 ‹_›
  · simp [names]

theorem edge_addDependency_iff :
    (g.addDependency source target).Edge a b ↔
      g.Edge a b ∨ a = source.name ∧ b = target.name := by
  unfold addDependency Edge
  simp only [edges_addNode]
  split
  · next h =>
    rw [edges_addNode, edges_addNode]
    constructor
    · exact .inl
    · rintro (h | ⟨rfl, rfl⟩)
      · exact h
      · exact ‹_›
  · simp

theorem mem_names_addDependency_iff :
    name ∈ (g.addDependency source target).names ↔
      name ∈ g.names ∨ name = source.name ∨ name = target.name := by
  have hnames : (g.addDependency source target).names =
      ((g.addNode source).addNode target).names := by
    unfold addDependency
    dsimp only
    split <;> rfl
  rw [hnames, mem_names_addNode_iff, mem_names_addNode_iff, or_assoc]

theorem closed_empty : empty.Closed := nofun

theorem Closed.addNode (h : g.Closed) : (g.addNode n).Closed := by
  intro a b hab
  rw [Edge, edges_addNode] at hab
  obtain ⟨ha, hb⟩ := h a b hab
  exact ⟨mem_names_addNode_iff.2 (.inl ha), mem_names_addNode_iff.2 (.inl hb)⟩

theorem Closed.addDependency (h : g.Closed) : (g.addDependency source target).Closed := by
  intro a b hab
  rw [mem_names_addDependency_iff, mem_names_addDependency_iff]
  rcases edge_addDependency_iff.1 hab with hab | ⟨rfl, rfl⟩
  · obtain ⟨ha, hb⟩ := h a b hab
    exact ⟨.inl ha, .inl hb⟩
  · exact ⟨.inr (.inl rfl), .inr (.inr rfl)⟩

/-! Dependencies of one type, one after another -/

section

variable {targets : List Node}

theorem edge_foldl_addDependency_iff :
    (targets.foldl (fun g n => g.addDependency source n) g).Edge a b ↔
      g.Edge a b ∨ a = source.name ∧ ∃ n ∈ targets, b = n.name := by
  induction targets generalizing g with
  | nil => simp
  | cons n targets ih =>
    rw [List.foldl_cons, ih, edge_addDependency_iff, List.exists_mem_cons_iff, or_assoc,
      ← and_or_left]

theorem mem_names_foldl_addDependency_iff :
    name ∈ (targets.foldl (fun g n => g.addDependency source n) g).names ↔
      name ∈ g.names ∨ ∃ n ∈ targets, name = source.name ∨ name = n.name := by
  induction targets generalizing g with
  | nil => simp
  | cons n targets ih =>
    rw [List.foldl_cons, ih, mem_names_addDependency_iff, List.exists_mem_cons_iff, or_assoc]

theorem Closed.foldl_addDependency (h : g.Closed) :
    (targets.foldl (fun g n => g.addDependency source n) g).Closed := by
  induction targets generalizing g with
  | nil => exact h
  | cons n targets ih => exact ih h.addDependency

end

/-! ## Needs -/

theorem nodup_transitive : (g.transitive a).Nodup := by
  have hkeys : ((g.transitive a).map id).Nodup := BreadthFirst.nodup_keys_visit.1
  rwa [List.map_id] at hkeys

theorem mem_successors_iff : b ∈ g.successors a ↔ g.Edge a b := by
  simp [successors, Edge]

/-- What a type needs lies on a path of edges. -/
theorem needs_iff_exists_path :
    g.Needs a b ↔ ∃ n, BreadthFirst.Path g.successors (g.successors a) n b := by
  constructor
  · intro h
    induction h with
    | single h => exact ⟨0, .start (mem_successors_iff.2 h)⟩
    | tail _ h ih =>
      obtain ⟨n, ih⟩ := ih
      exact ⟨n + 1, .step ih (mem_successors_iff.2 h)⟩
  · rintro ⟨n, h⟩
    induction h with
    | start h => exact .single (mem_successors_iff.1 h)
    | step _ h ih => exact .tail ih (mem_successors_iff.1 h)

variable (hg : g.Closed)

include hg

theorem successors_eq_nil (h : a ∉ g.names) : g.successors a = [] :=
  List.eq_nil_iff_forall_not_mem.2 fun b hb => h (hg a b (mem_successors_iff.1 hb)).1

theorem searchable_successors (a : String) :
    BreadthFirst.Searchable id g.successors g.names (g.successors a) where
  next_eq := fun _ _ h => congrArg _ h
  next_eq_nil := fun _ hname => successors_eq_nil hg hname

/-- **The types that a type needs** are those that edges lead to. -/
theorem mem_transitive_iff : b ∈ g.transitive a ↔ g.Needs a b := by
  have hmem : b ∈ (g.transitive a).map id ↔
      ∃ n, BreadthFirst.At id g.successors (g.successors a) n b :=
    BreadthFirst.mem_keys_visit_iff (searchable_successors hg a)
  rw [List.map_id] at hmem
  rw [hmem, needs_iff_exists_path]
  constructor
  · rintro ⟨n, _, h, rfl⟩
    exact ⟨n, h⟩
  · rintro ⟨n, h⟩
    exact ⟨n, b, h, rfl⟩

theorem mem_names_of_needs (h : g.Needs a b) : a ∈ g.names ∧ b ∈ g.names := by
  constructor
  · obtain ⟨c, hac, _⟩ := Relation.TransGen.head'_iff.1 h
    exact (hg a c hac).1
  · obtain ⟨c, _, hcb⟩ := Relation.TransGen.tail'_iff.1 h
    exact (hg c b hcb).2

/-- **A graph has cycles if a type needs itself.** -/
theorem hasCycles_iff : g.hasCycles ↔ ∃ a, g.Needs a a := by
  simp only [hasCycles, List.any_eq_true, decide_eq_true_eq, mem_transitive_iff hg]
  constructor
  · rintro ⟨a, _, h⟩
    exact ⟨a, h⟩
  · rintro ⟨a, h⟩
    exact ⟨a, (mem_names_of_needs hg h).1, h⟩

theorem edge_iff_exists_mem_direct : g.Edge a b ↔ ∃ n ∈ g.direct a, n.name = b := by
  simp only [direct, List.mem_mergeSort, List.mem_filterMap, mem_successors_iff]
  constructor
  · intro h
    obtain ⟨n, hn⟩ := exists_node?_of_mem_names (hg a b h).2
    exact ⟨n, ⟨b, h, hn⟩, name_of_node? hn⟩
  · rintro ⟨n, ⟨c, h, hn⟩, rfl⟩
    rwa [name_of_node? hn]

end Wiring.Graph
