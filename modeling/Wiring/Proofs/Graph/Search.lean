import Mathlib.Data.List.Perm.Subperm
import Mathlib.Logic.Function.Iterate
import Wiring.Proofs.Graph.Dependencies
import Wiring.Proofs.Graph.Paths

/-!
# The search for needs

What a type needs, itself or through others, is found by a search that takes one type after another
from a queue and puts there what that type needs and was not found before. Nothing bounds this
search; it ends because a type is found once only. The type that the search starts from counts as
found only when it is met again.
-/

namespace Wiring.Graph

open BreadthFirst (fresh visit)

variable {g : Graph} {a : String}

/-! ## Single steps -/

/-- A search on its way. -/
structure Search where
  /-- The types found so far, in order. -/
  found : List String
  /-- The types whose needs are still to be looked at, in order. -/
  queue : List String

namespace Search

/-- The search for what a type needs; there is nothing to do for one that is not in the graph. -/
def start (g : Graph) (name : String) : Search := ⟨[], if g.contains name then [name] else []⟩

/-- Takes a type as found and puts it in the queue, unless it was found before. -/
def note (s : Search) (name : String) : Search :=
  if name ∈ s.found then s else ⟨s.found ++ [name], s.queue ++ [name]⟩

/-- Looks at what the first type of the queue needs; at an empty queue the search is over. -/
def step (g : Graph) : Search → Search
  | ⟨found, []⟩ => ⟨found, []⟩
  | ⟨found, a :: rest⟩ => (g.successors a).foldl note ⟨found, rest⟩

/-- What a search has yet to find. -/
def remaining (g : Graph) (s : Search) : List String :=
  visit id g.successors g.names s.found.reverse (s.queue.flatMap g.successors)

theorem foldl_note (found queue names : List String) :
    names.foldl note ⟨found, queue⟩ =
      ⟨found ++ fresh id found.reverse names, queue ++ fresh id found.reverse names⟩ := by
  induction names generalizing found queue with
  | nil => simp [fresh]
  | cons name names ih =>
    rw [List.foldl_cons, fresh, note]
    by_cases hname : name ∈ found
    · simp [hname, ih]
    · simp [hname, ih]

/-- A step finds the first of what remains, and leaves the rest of it. -/
theorem step_cons (hg : g.Closed) (found : List String) (a : String) (rest : List String) :
    ∃ new, step g ⟨found, a :: rest⟩ = ⟨found ++ new, rest ++ new⟩ ∧
      remaining g ⟨found, a :: rest⟩ = new ++ remaining g ⟨found ++ new, rest ++ new⟩ := by
  refine ⟨fresh id found.reverse (g.successors a), foldl_note .., ?_⟩
  have hscope : ∀ b ∈ g.successors a, id b ∉ g.names → g.successors b = [] :=
    fun b _ => successors_eq_nil hg
  simp only [remaining, List.flatMap_cons]
  rw [BreadthFirst.visit_append _ _ hscope]
  simp [BreadthFirst.marked]

/-- **A search ends** after a step for each type in its queue and each type that it has yet to find. -/
theorem iterate_step (hg : g.Closed) (n : Nat) (s : Search)
    (hn : s.queue.length + (remaining g s).length = n) :
    (step g)^[n] s = ⟨s.found ++ remaining g s, []⟩ := by
  induction n generalizing s with
  | zero =>
    obtain ⟨found, queue⟩ := s
    obtain ⟨hqueue, hremaining⟩ := Nat.add_eq_zero_iff.1 hn
    cases List.length_eq_zero_iff.1 hqueue
    simp [List.length_eq_zero_iff.1 hremaining]
  | succ n ih =>
    obtain ⟨found, _ | ⟨a, rest⟩⟩ := s
    · simp [remaining, visit] at hn
    · obtain ⟨new, hstep, hremaining⟩ := step_cons hg found a rest
      rw [hremaining] at hn
      rw [Function.iterate_succ_apply, hstep, ih, hremaining, List.append_assoc]
      simp only [List.length_append, List.length_cons] at hn ⊢
      omega

end Search

/-! ## Whole searches -/

section

variable (hg : g.Closed)

include hg

theorem transitive_eq_nil (h : a ∉ g.names) : g.transitive a = [] := by
  rw [transitive, successors_eq_nil hg h, visit]

theorem transitive_subset_names : g.transitive a ⊆ g.names :=
  fun _ hb => (mem_names_of_needs hg ((mem_transitive_iff hg).1 hb)).2

/-- **The search for what a type needs** ends in as many steps as there are types, and one more. -/
theorem exists_iterate_step (a : String) :
    ∃ n ≤ g.nodes.length + 1, (Search.step g)^[n] (.start g a) = ⟨g.transitive a, []⟩ := by
  have hlength : (g.transitive a).length ≤ g.nodes.length := by
    have hsubset : g.transitive a ⊆ g.names := transitive_subset_names hg
    have hle := (List.subperm_of_subset nodup_transitive hsubset).length_le
    rwa [names, List.length_map] at hle
  have hremaining : Search.remaining g (.start g a) = g.transitive a := by
    by_cases ha : g.contains a
    · simp [Search.remaining, Search.start, ha, transitive]
    · rw [transitive_eq_nil hg (mt contains_iff.2 ha)]
      simp [Search.remaining, Search.start, ha, visit]
  have hqueue : (Search.start g a).queue.length ≤ 1 := by
    unfold Search.start
    split <;> simp
  refine ⟨_, ?_, (Search.iterate_step hg _ _ rfl).trans ?_⟩
  · rw [hremaining]
    omega
  · rw [hremaining]
    rfl

end

/-- A test for cycles of distinct types. -/
def IsCycleTest (test : Graph → Bool) : Prop :=
  ∀ g : Graph, g.Closed → (test g = true ↔ ∃ c, g.IsCycle c)

theorem exists_isCycle_iff : (∃ c, g.IsCycle c) ↔ ∃ a, g.Needs a a := by
  constructor
  · rintro ⟨c, hc⟩
    obtain ⟨first, _, hfirst, _⟩ := hc.closes
    exact ⟨first, needs_self_iff.2 ⟨c, hc, List.mem_of_mem_head? hfirst⟩⟩
  · rintro ⟨a, ha⟩
    obtain ⟨c, hc, _⟩ := needs_self_iff.1 ha
    exact ⟨c, hc⟩

theorem isCycleTest_hasCycles : IsCycleTest hasCycles := fun _ hg => by
  rw [hasCycles_iff hg, exists_isCycle_iff]

/-- Whichever way cycles are looked for, a type on one of them is found among its own needs. -/
theorem IsCycleTest.iff_self_mem {test : Graph → Bool} (htest : IsCycleTest test) (hg : g.Closed) :
    test g = true ↔ ∃ a ∈ g.names, a ∈ g.transitive a := by
  rw [htest g hg, exists_isCycle_iff]
  constructor
  · rintro ⟨a, ha⟩
    exact ⟨a, (mem_names_of_needs hg ha).1, (mem_transitive_iff hg).2 ha⟩
  · rintro ⟨a, -, ha⟩
    exact ⟨a, (mem_transitive_iff hg).1 ha⟩

/-- How the types that a type needs, the paths from it and the cycles of the graph agree. -/
structure Explored (g : Graph) : Prop where
  /-- The search ends, and what it has found then are the needs. -/
  ends : ∀ a, ∃ n ≤ g.nodes.length + 1, (Search.step g)^[n] (.start g a) = ⟨g.transitive a, []⟩
  nodup : ∀ a, (g.transitive a).Nodup
  mem_iff : ∀ a b, b ∈ g.transitive a ↔ b ∈ g.names ∧ ∃ p, g.IsPath a p ∧ p.getLast? = some b
  self_mem_iff : ∀ a, a ∈ g.transitive a ↔ ∃ c, g.IsCycle c ∧ a ∈ c
  eq_nil : ∀ a, a ∉ g.names → g.transitive a = []
  /-- Every test for cycles finds one exactly if a type needs itself; the test of the graph is such
  a test. -/
  cycleTest_iff_self_mem : ∀ test, IsCycleTest test →
    (test g = true ↔ ∃ a ∈ g.names, a ∈ g.transitive a)
  hasCycles_iff_self_mem : g.hasCycles ↔ ∃ a ∈ g.names, a ∈ g.transitive a
  hasCycles_iff_isCycle : g.hasCycles ↔ ∃ c, g.IsCycle c

/-- **What a type needs** in a graph of dependencies, itself or through others, is what its paths end
at. The graph has cycles exactly if a type needs itself. -/
theorem explored_ofDependencies (ds : List Dependency) : (ofDependencies ds).Explored where
  ends := exists_iterate_step (closed_ofDependencies ds)
  nodup := fun _ => nodup_transitive
  mem_iff := by
    intro a b
    have hclosed := closed_ofDependencies ds
    rw [← needs_iff_exists_isPath, mem_transitive_iff hclosed]
    exact ⟨fun h => ⟨(mem_names_of_needs hclosed h).2, h⟩, And.right⟩
  self_mem_iff := by
    intro a
    rw [mem_transitive_iff (closed_ofDependencies ds), needs_self_iff]
  eq_nil := fun _ => transitive_eq_nil (closed_ofDependencies ds)
  cycleTest_iff_self_mem := fun _ htest => htest.iff_self_mem (closed_ofDependencies ds)
  hasCycles_iff_self_mem := isCycleTest_hasCycles.iff_self_mem (closed_ofDependencies ds)
  hasCycles_iff_isCycle := isCycleTest_hasCycles _ (closed_ofDependencies ds)

end Wiring.Graph
