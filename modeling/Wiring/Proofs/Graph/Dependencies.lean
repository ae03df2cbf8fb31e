import Wiring.Proofs.Graph.Basic

/-!
# Graphs of dependencies

Dependencies that are added one after another leave a graph with the types that they mention, each
once and with the kind of its first mention, and with an edge for each of them, once. A graph may
hold these nodes and edges in any order: graphs that record the same dependencies have the same
nodes and the same edges.
-/

namespace Wiring.Graph

/-- A type, and one that it needs. -/
abbrev Dependency := Node × Node

variable {g h : Graph} {ds ds' : List Dependency} {name : String} {n source target : Node}

/-- The graph that adding dependencies one after another leads to. -/
def ofDependencies (ds : List Dependency) : Graph :=
  ds.foldl (fun g d => g.addDependency d.1 d.2) empty

/-- The types that dependencies mention, in order. -/
def mentions (ds : List Dependency) : List Node := ds.flatMap fun d => [d.1, d.2]

/-- The first type of this name that dependencies mention. -/
def firstMention? (ds : List Dependency) (name : String) : Option Node :=
  (mentions ds).find? (·.name == name)

/-- A name always comes with the same kind. -/
def SameKinds (ds : List Dependency) : Prop :=
  ∀ m ∈ mentions ds, ∀ n ∈ mentions ds, m.name = n.name → m.kind = n.kind

instance : Decidable (SameKinds ds) :=
  inferInstanceAs <| Decidable <|
    ∀ m ∈ mentions ds, ∀ n ∈ mentions ds, m.name = n.name → m.kind = n.kind

/-- A graph that holds what dependencies mention, in whatever order. -/
structure Records (g : Graph) (ds : List Dependency) : Prop where
  nodup_names : g.names.Nodup
  mem_names_iff : ∀ name, name ∈ g.names ↔ ∃ n ∈ mentions ds, n.name = name
  /-- A node is the first type that is mentioned under its name. -/
  mem_nodes_iff : ∀ n, n ∈ g.nodes ↔ firstMention? ds n.name = some n
  /-- A name leads to its own node. -/
  node?_eq : ∀ name, g.node? name = firstMention? ds name
  nodup_edges : g.edges.Nodup
  edge_iff : ∀ a b, g.Edge a b ↔ ∃ d ∈ ds, d.1.name = a ∧ d.2.name = b

/-! ## Nodes under their names -/

/-- In a graph without repeated names a name leads to the node that has it. -/
theorem node?_eq_some_iff (hg : g.names.Nodup) :
    g.node? name = some n ↔ n ∈ g.nodes ∧ n.name = name := by
  constructor
  · intro h
    exact ⟨List.mem_of_find?_eq_some h, name_of_node? h⟩
  · rintro ⟨hn, rfl⟩
    obtain ⟨m, hm⟩ := exists_node?_of_mem_names (List.mem_map_of_mem hn)
    rw [hm, List.inj_on_of_nodup_map hg (List.mem_of_find?_eq_some hm) hn (name_of_node? hm)]

theorem node?_addNode :
    (g.addNode n).node? name = (g.node? name).or ([n].find? (·.name == name)) := by
  unfold addNode
  split
  · next hn =>
    -- what comes second is of no account, since the graph has a node of that name
    cases hfind : g.node? name with
    | some m => rfl
    | none =>
      have hne : n.name ≠ name := by
        rintro rfl
        simp [contains, hfind] at hn
      simp [hne]
  · simp only [node?, List.find?_append]

theorem nodup_names_addNode (hg : g.names.Nodup) : (g.addNode n).names.Nodup := by
  unfold addNode
  split
  · exact hg
  · next hn =>
    rw [contains_iff] at hn
    rw [names, List.map_append, List.map_singleton, ← List.concat_eq_append]
    exact hg.concat hn

theorem nodes_addDependency :
    (g.addDependency source target).nodes = ((g.addNode source).addNode target).nodes := by
  unfold addDependency
  dsimp only
  split <;> rfl

theorem node?_addDependency :
    (g.addDependency source target).node? name =
      (g.node? name).or ([source, target].find? (·.name == name)) := by
  have hnodes : (g.addDependency source target).node? name =
      ((g.addNode source).addNode target).node? name := by
    rw [node?, nodes_addDependency, ← node?]
  rw [hnodes, node?_addNode, node?_addNode, Option.or_assoc, ← List.find?_append]
  rfl

theorem nodup_names_addDependency (hg : g.names.Nodup) :
    (g.addDependency source target).names.Nodup := by
  rw [names, nodes_addDependency]
  exact nodup_names_addNode (nodup_names_addNode hg)

theorem nodup_edges_addDependency (hg : g.edges.Nodup) :
    (g.addDependency source target).edges.Nodup := by
  unfold addDependency
  simp only [edges_addNode]
  split
  · rwa [edges_addNode, edges_addNode]
  · next hnew =>
    rw [← List.concat_eq_append]
    exact hg.concat hnew

/-! ## What dependencies leave -/

theorem mentions_append : mentions (ds ++ ds') = mentions ds ++ mentions ds' :=
  List.flatMap_append

theorem firstMention?_append :
    firstMention? (ds ++ [(source, target)]) name =
      (firstMention? ds name).or ([source, target].find? (·.name == name)) := by
  rw [firstMention?, mentions_append, List.find?_append]
  rfl

theorem mem_mentions_iff : n ∈ mentions ds ↔ ∃ d ∈ ds, n = d.1 ∨ n = d.2 := by
  simp [mentions]

theorem firstMention?_isSome_iff :
    (firstMention? ds name).isSome ↔ ∃ n ∈ mentions ds, n.name = name := by
  simp [firstMention?]

/-- What a graph records is told by its map from names to nodes and by its edges. -/
theorem Records.of_node?_eq (hnames : g.names.Nodup) (hedges : g.edges.Nodup)
    (hnode : ∀ name, g.node? name = firstMention? ds name)
    (hedge : ∀ a b, g.Edge a b ↔ ∃ d ∈ ds, d.1.name = a ∧ d.2.name = b) : g.Records ds where
  nodup_names := hnames
  mem_names_iff := by
    intro name
    rw [← contains_iff, contains, hnode, firstMention?_isSome_iff]
  mem_nodes_iff := by
    intro n
    rw [← hnode, node?_eq_some_iff hnames]
    simp
  node?_eq := hnode
  nodup_edges := hedges
  edge_iff := hedge

theorem records_empty : empty.Records [] :=
  .of_node?_eq List.nodup_nil List.nodup_nil (fun _ => rfl) (by simp [Edge, empty])

/-- **One more dependency.** -/
theorem Records.addDependency (hg : g.Records ds) :
    (g.addDependency source target).Records (ds ++ [(source, target)]) := by
  refine .of_node?_eq (nodup_names_addDependency hg.nodup_names)
    (nodup_edges_addDependency hg.nodup_edges) ?_ ?_
  · intro name
    rw [node?_addDependency, hg.node?_eq, firstMention?_append]
  · intro a b
    rw [edge_addDependency_iff, hg.edge_iff]
    simp [or_and_right, exists_or, eq_comm]

theorem Records.foldl_addDependency (hg : g.Records ds) :
    (ds'.foldl (fun g d => g.addDependency d.1 d.2) g).Records (ds ++ ds') := by
  induction ds' generalizing g ds with
  | nil => rwa [List.append_nil]
  | cons d ds' ih =>
    rw [List.append_cons]
    exact ih hg.addDependency

/-- **A graph holds what the dependencies mention** that were added to it. -/
theorem records_ofDependencies (ds : List Dependency) : (ofDependencies ds).Records ds :=
  records_empty.foldl_addDependency

theorem Records.closed (hg : g.Records ds) : g.Closed := by
  intro a b hab
  obtain ⟨d, hd, rfl, rfl⟩ := (hg.edge_iff a b).1 hab
  rw [hg.mem_names_iff, hg.mem_names_iff]
  exact ⟨⟨d.1, mem_mentions_iff.2 ⟨d, hd, .inl rfl⟩, rfl⟩,
    ⟨d.2, mem_mentions_iff.2 ⟨d, hd, .inr rfl⟩, rfl⟩⟩

theorem closed_ofDependencies (ds : List Dependency) : (ofDependencies ds).Closed :=
  (records_ofDependencies ds).closed

/-! ## Dependencies in another order -/

theorem SameKinds.perm (hds : SameKinds ds) (h : ds.Perm ds') : SameKinds ds' := by
  have hmem : ∀ n, n ∈ mentions ds' → n ∈ mentions ds :=
    fun _ => (h.flatMap_right _).mem_iff.2
  exact fun m hm n hn => hds m (hmem m hm) n (hmem n hn)

section

variable (hds : SameKinds ds) (hperm : ds.Perm ds') (hg : g.Records ds) (hh : h.Records ds')

include hperm hg hh

include hds

end

end Wiring.Graph
