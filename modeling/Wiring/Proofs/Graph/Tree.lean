import Wiring.Graph.Tree
import Wiring.Proofs.Graph.Basic

/-!
# Circular references

A tree marks the types that the path to them has met before. Such a mark is a cycle of the graph,
and every cycle that the root leads to is marked somewhere: a branch without a mark leads to no type
of its path, and to none that needs itself.
-/

namespace Wiring.Graph

open Relation (ReflTransGen)

variable {g : Graph} {path : List String} {margin : List Bool} {last : Bool} {n : Node} {l : Line}
  {a root : String}

/-! ## Branches beside each other -/

section

variable {draw : Bool → Node → List Line} {ns : List Node}

theorem exists_of_mem_siblings (h : l ∈ siblings draw ns) : ∃ last, ∃ n ∈ ns, l ∈ draw last n := by
  induction ns with
  | nil => cases h
  | cons n ns ih =>
    rcases List.mem_append.1 h with h | h
    · exact ⟨_, n, List.mem_cons_self, h⟩
    · obtain ⟨last, n', hn', h⟩ := ih h
      exact ⟨last, n', List.mem_cons_of_mem _ hn', h⟩

theorem exists_subset_siblings (h : n ∈ ns) : ∃ last, draw last n ⊆ siblings draw ns := by
  induction ns with
  | nil => cases h
  | cons n' ns ih =>
    rcases List.mem_cons.1 h with rfl | h
    · exact ⟨_, List.subset_append_left _ _⟩
    · obtain ⟨last, hlast⟩ := ih h
      exact ⟨last, List.subset_append_of_subset_right _ hlast⟩

end

/-! ## One branch -/

theorem branch_of_mem (hs : n.name ∈ path) :
    g.branch path margin last n =
      [⟨margin, last, .node n⟩, ⟨margin ++ [last], true, .circular⟩] := by
  rw [branch, dif_pos hs]

theorem branch_of_new (hs : n.name ∉ path) (hk : n.name ∈ g.names) :
    g.branch path margin last n = ⟨margin, last, .node n⟩ ::
      siblings (g.branch (n.name :: path) (margin ++ [last])) (g.direct n.name) := by
  rw [branch, dif_neg hs, dif_pos hk]

/-- Nothing is drawn below a type that is not in the graph. -/
theorem branch_of_unknown (hs : n.name ∉ path) (hk : n.name ∉ g.names) :
    g.branch path margin last n = [⟨margin, last, .node n⟩] := by
  rw [branch, dif_neg hs, dif_neg hk]

/-! ## Marks -/

theorem not_isCircular_node : ¬(⟨margin, last, .node n⟩ : Line).isCircular := by
  simp [Line.isCircular]

/-- Below a path whose types need the next one, a mark is a cycle. -/
theorem exists_needs_self_of_mem_branch (hg : g.Closed) (hpath : ∀ x ∈ path, g.Needs x n.name)
    (hl : l ∈ g.branch path margin last n) (hmark : l.isCircular) :
    ∃ a, ReflTransGen g.Edge n.name a ∧ g.Needs a a := by
  induction path, margin, last, n using branch.induct g with
  | case1 path margin last n hs => exact ⟨n.name, .refl, hpath _ hs⟩
  | case2 path margin last n inner hs hk _ ih =>
    rw [branch_of_new hs hk] at hl
    rcases List.mem_cons.1 hl with rfl | hl
    · exact absurd hmark not_isCircular_node
    · obtain ⟨last', child, hchild, hl⟩ := exists_of_mem_siblings hl
      have hedge : g.Edge n.name child.name :=
        (edge_iff_exists_mem_direct hg).2 ⟨child, hchild, rfl⟩
      have hpath' : ∀ x ∈ n.name :: path, g.Needs x child.name :=
        List.forall_mem_cons.2 ⟨.single hedge, fun x hx => .tail (hpath x hx) hedge⟩
      obtain ⟨a, hreach, ha⟩ := ih last' child hpath' hl
      exact ⟨a, .head hedge hreach, ha⟩
  | case3 path margin last n hs hk =>
    rw [branch_of_unknown hs hk] at hl
    cases List.mem_singleton.1 hl
    exact absurd hmark not_isCircular_node

/-- The branch to a type leads to no type of a path, and to none that needs itself. -/
def Unwinds (g : Graph) (path : List String) (name : String) : Prop :=
  ∀ a, ReflTransGen g.Edge name a → a ∉ path ∧ ¬g.Needs a a

/-- A type unwinds if the types that it needs do so below it. -/
theorem Unwinds.of_forall_edge (hname : root ∉ path)
    (h : ∀ b, g.Edge root b → g.Unwinds (root :: path) b) : g.Unwinds path root := by
  intro a hreach
  rcases Relation.ReflTransGen.cases_head hreach with rfl | ⟨b, hedge, hreach⟩
  · refine ⟨hname, fun hcycle => ?_⟩
    -- a cycle through the type itself would come back to it from a branch below
    obtain ⟨b, hedge, hback⟩ := Relation.TransGen.head'_iff.1 hcycle
    exact (h b hedge root hback).1 List.mem_cons_self
  · obtain ⟨hpath, hcycle⟩ := h b hedge a hreach
    exact ⟨fun ha => hpath (List.mem_cons_of_mem _ ha), hcycle⟩

/-- A branch without a mark unwinds. -/
theorem unwinds_of_branch (hg : g.Closed)
    (h : ∀ l ∈ g.branch path margin last n, ¬l.isCircular) : g.Unwinds path n.name := by
  induction path, margin, last, n using branch.induct g with
  | case1 path margin last n hs =>
    rw [branch_of_mem hs] at h
    exact absurd rfl (h _ (List.mem_cons_of_mem _ List.mem_cons_self))
  | case2 path margin last n inner hs hk _ ih =>
    rw [branch_of_new hs hk] at h
    refine .of_forall_edge hs fun b hedge => ?_
    obtain ⟨child, hchild, rfl⟩ := (edge_iff_exists_mem_direct hg).1 hedge
    obtain ⟨last', hsub⟩ := exists_subset_siblings hchild
    exact ih last' child fun l hl => h l (List.mem_cons_of_mem _ (hsub hl))
  | case3 path margin last n hs hk =>
    exact .of_forall_edge hs fun b hedge => absurd (hg _ _ hedge).1 hk

/-- **A tree shows a mark exactly if its root leads to a type that needs itself.** -/
theorem exists_isCircular_iff (hg : g.Closed) :
    (∃ l ∈ g.lines root, l.isCircular) ↔ ∃ a, ReflTransGen g.Edge root a ∧ g.Needs a a := by
  constructor
  · rintro ⟨l, hl, hmark⟩
    obtain ⟨last, child, hchild, hl⟩ := exists_of_mem_siblings hl
    have hedge : g.Edge root child.name := (edge_iff_exists_mem_direct hg).2 ⟨child, hchild, rfl⟩
    have hpath : ∀ x ∈ [root], g.Needs x child.name := by
      intro x hx
      rw [List.mem_singleton.1 hx]
      exact .single hedge
    obtain ⟨a, hreach, ha⟩ := exists_needs_self_of_mem_branch hg hpath hl hmark
    exact ⟨a, .head hedge hreach, ha⟩
  · rintro ⟨a, hreach, ha⟩
    by_contra hnone
    have hunwinds : g.Unwinds [] root := by
      refine .of_forall_edge List.not_mem_nil fun b hedge => ?_
      obtain ⟨child, hchild, rfl⟩ := (edge_iff_exists_mem_direct hg).1 hedge
      obtain ⟨last, hsub⟩ : ∃ last, g.branch [root] [] last child ⊆ g.lines root :=
        exists_subset_siblings hchild
      exact unwinds_of_branch hg fun l hl hmark => hnone ⟨l, hsub hl, hmark⟩
    exact (hunwinds a hreach).2 ha

end Wiring.Graph
