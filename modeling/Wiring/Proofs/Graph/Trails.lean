import Wiring.Proofs.Graph.Answers
import Wiring.Proofs.Graph.Paths

/-!
# Trails

A trail goes from a root from type to type until it ends, at the latest at a type that it came to
before. The trails of a graph are listed depth first, those that go on to the first type by name
before the others. This is the order of lists: a trail comes before those that go on from it, and of
two trails that part somewhere the one that parts to the smaller name is first.
-/

namespace Wiring.Graph

variable {g : Graph} {a b name root : String} {path p q : List String} {n : Node}

/-! ## What trails are -/

/-- A path from `root` that does not go on from a type that it came to before. -/
structure IsTrail (g : Graph) (root : String) (p : List String) : Prop extends IsPath g root p where
  nodup : (root :: p.dropLast).Nodup

/-- A trail that goes on below the types in `path`, from its own first type. -/
inductive GoesOn (g : Graph) : List String → List String → Prop
  | stop {path : List String} {a : String} : GoesOn g path [a]
  | step {path p : List String} {a b : String} (hnew : a ∉ path) (hedge : g.Edge a b)
    (h : GoesOn g (a :: path) (b :: p)) : GoesOn g path (a :: b :: p)

theorem GoesOn.of_cons (h : g.GoesOn path (a :: b :: p)) :
    a ∉ path ∧ g.Edge a b ∧ g.GoesOn (a :: path) (b :: p) := by
  cases h with
  | step hnew hedge h => exact ⟨hnew, hedge, h⟩

/-- A trail below a path told at once: it meets its types and those of the path only at its end. -/
theorem goesOn_cons_iff :
    g.GoesOn path (a :: p) ↔ (a :: p).IsChain g.Edge ∧
      (a :: p).dropLast.Nodup ∧ ∀ x ∈ (a :: p).dropLast, x ∉ path := by
  induction p generalizing a path with
  | nil => simpa using GoesOn.stop
  | cons b p ih =>
    simp only [List.isChain_cons_cons, List.dropLast_cons_cons, List.nodup_cons, List.mem_cons,
      forall_eq_or_imp]
    constructor
    · intro h
      obtain ⟨hnew, hedge, h⟩ := h.of_cons
      obtain ⟨hchain, hnodup, hfresh⟩ := ih.1 h
      simp only [List.mem_cons, not_or] at hfresh
      exact ⟨⟨hedge, hchain⟩, ⟨fun ha => (hfresh a ha).1 rfl, hnodup⟩, hnew,
        fun x hx => (hfresh x hx).2⟩
    · rintro ⟨⟨hedge, hchain⟩, ⟨hne, hnodup⟩, hnew, hfresh⟩
      have hfresh' : ∀ x ∈ (b :: p).dropLast, x ∉ a :: path := by
        intro x hx hmem
        rcases List.mem_cons.1 hmem with rfl | hmem
        · exact hne hx
        · exact hfresh x hx hmem
      exact .step hnew hedge (ih.2 ⟨hchain, hnodup, hfresh'⟩)

theorem isTrail_cons_iff : g.IsTrail root (b :: p) ↔ g.Edge root b ∧ g.GoesOn [root] (b :: p) := by
  rw [goesOn_cons_iff]
  constructor
  · rintro ⟨⟨_, hchain⟩, hnodup⟩
    obtain ⟨hedge, hchain⟩ := List.isChain_cons_cons.1 hchain
    obtain ⟨hroot, hnodup⟩ := List.nodup_cons.1 hnodup
    refine ⟨hedge, hchain, hnodup, fun x hx hmem => hroot ?_⟩
    rwa [← List.mem_singleton.1 hmem]
  · rintro ⟨hedge, hchain, hnodup, hfresh⟩
    refine ⟨⟨List.cons_ne_nil _ _, List.isChain_cons_cons.2 ⟨hedge, hchain⟩⟩,
      List.nodup_cons.2 ⟨fun hroot => hfresh root hroot (List.mem_singleton_self _), hnodup⟩⟩

/-! ## The list of trails -/

/-- The trails that go on from the type `name` below the types in `path`. -/
def trailsBelow (g : Graph) (path : List String) (name : String) : List (List String) :=
  if hs : name ∈ path then [[name]]
  else if hk : name ∈ g.names then
    have := BreadthFirst.unseen_cons_lt hk hs
    [name] ::
      ((g.direct name).flatMap fun n => trailsBelow g (name :: path) n.name).map (name :: ·)
  else [[name]]
termination_by BreadthFirst.unseen g.names path

/-- The trails from a root, depth first. -/
def trails (g : Graph) (root : String) : List (List String) :=
  (g.direct root).flatMap fun n => g.trailsBelow [root] n.name

theorem trailsBelow_of_mem (hs : name ∈ path) : g.trailsBelow path name = [[name]] := by
  rw [trailsBelow, dif_pos hs]

theorem trailsBelow_of_new (hs : name ∉ path) (hk : name ∈ g.names) :
    g.trailsBelow path name = [name] ::
      ((g.direct name).flatMap fun n => g.trailsBelow (name :: path) n.name).map (name :: ·) := by
  rw [trailsBelow, dif_neg hs, dif_pos hk]

theorem trailsBelow_of_unknown (hs : name ∉ path) (hk : name ∉ g.names) :
    g.trailsBelow path name = [[name]] := by
  rw [trailsBelow, dif_neg hs, dif_neg hk]

theorem exists_cons_of_mem_trailsBelow (h : p ∈ g.trailsBelow path name) : ∃ q, p = name :: q := by
  rw [trailsBelow] at h
  split at h
  · exact ⟨[], List.mem_singleton.1 h⟩
  · split at h
    · rcases List.mem_cons.1 h with rfl | h
      · exact ⟨[], rfl⟩
      · obtain ⟨q, _, rfl⟩ := List.mem_map.1 h
        exact ⟨q, rfl⟩
    · exact ⟨[], List.mem_singleton.1 h⟩

/-- Trails that go on from what a type needs, if the trails from each of these types are known. -/
theorem mem_flatMap_direct_iff {f : String → List (List String)} {R : List String → Prop}
    (hg : g.Closed)
    (hf : ∀ n ∈ g.direct a, ∀ p, p ∈ f n.name ↔ (∃ q, p = n.name :: q) ∧ R p) :
    p ∈ (g.direct a).flatMap (fun n => f n.name) ↔ ∃ b q, p = b :: q ∧ g.Edge a b ∧ R p := by
  rw [List.mem_flatMap]
  constructor
  · rintro ⟨n, hn, hp⟩
    obtain ⟨⟨q, rfl⟩, hR⟩ := (hf n hn p).1 hp
    exact ⟨n.name, q, rfl, (edge_iff_exists_mem_direct hg).2 ⟨n, hn, rfl⟩, hR⟩
  · rintro ⟨b, q, rfl, hedge, hR⟩
    obtain ⟨n, hn, rfl⟩ := (edge_iff_exists_mem_direct hg).1 hedge
    exact ⟨n, hn, (hf n hn _).2 ⟨⟨q, rfl⟩, hR⟩⟩

theorem mem_trailsBelow_iff (hg : g.Closed) :
    p ∈ g.trailsBelow path name ↔ (∃ q, p = name :: q) ∧ g.GoesOn path p := by
  induction path, name using trailsBelow.induct g generalizing p with
  | case1 path name hs =>
    rw [trailsBelow_of_mem hs, List.mem_singleton]
    constructor
    · rintro rfl
      exact ⟨⟨[], rfl⟩, .stop⟩
    · rintro ⟨⟨_ | ⟨b, q⟩, rfl⟩, h⟩
      · rfl
      · exact absurd hs h.of_cons.1
  | case2 path name hs hk _ ih =>
    rw [trailsBelow_of_new hs hk, List.mem_cons, List.mem_map]
    simp only [mem_flatMap_direct_iff hg fun n _ p => ih n]
    constructor
    · rintro (rfl | ⟨_, ⟨b, q, rfl, hedge, h⟩, rfl⟩)
      · exact ⟨⟨[], rfl⟩, .stop⟩
      · exact ⟨⟨b :: q, rfl⟩, .step hs hedge h⟩
    · rintro ⟨⟨_ | ⟨b, q⟩, rfl⟩, h⟩
      · exact .inl rfl
      · obtain ⟨_, hedge, h⟩ := h.of_cons
        exact .inr ⟨b :: q, ⟨b, q, rfl, hedge, h⟩, rfl⟩
  | case3 path name hs hk =>
    rw [trailsBelow_of_unknown hs hk, List.mem_singleton]
    constructor
    · rintro rfl
      exact ⟨⟨[], rfl⟩, .stop⟩
    · rintro ⟨⟨_ | ⟨b, q⟩, rfl⟩, h⟩
      · rfl
      · exact absurd (hg _ _ h.of_cons.2.1).1 hk

/-- **The list of trails** holds them all. -/
theorem mem_trails_iff (hg : g.Closed) : p ∈ g.trails root ↔ g.IsTrail root p := by
  rw [trails, mem_flatMap_direct_iff hg fun n _ p => mem_trailsBelow_iff hg]
  constructor
  · rintro ⟨b, q, rfl, hedge, h⟩
    exact isTrail_cons_iff.2 ⟨hedge, h⟩
  · intro h
    obtain ⟨b, q, rfl⟩ := List.exists_cons_of_ne_nil h.ne_nil
    obtain ⟨hedge, h⟩ := isTrail_cons_iff.1 h
    exact ⟨b, q, rfl, hedge, h⟩

/-! ## The order of trails -/

section

variable (hg : g.Closed) (hedges : g.edges.Nodup)

include hg hedges

theorem nodup_names_direct (a : String) : ((g.direct a).map (·.name)).Nodup := by
  have hsuccessors : (g.successors a).Nodup := by
    refine (hedges.filter _).map_on ?_
    rintro ⟨x, b⟩ hx ⟨y, c⟩ hy rfl
    have hx : x = a := by simpa using (List.mem_filter.1 hx).2
    have hy : y = a := by simpa using (List.mem_filter.1 hy).2
    rw [hx, hy]
  have hdirect : ((g.direct a).map (·.name)).Perm
      (((g.successors a).filterMap g.node?).map (·.name)) :=
    (List.mergeSort_perm _ _).map _
  rw [hdirect.nodup_iff, List.map_filterMap]
  -- a successor is the name of its own node
  have hname : ∀ b ∈ g.successors a, (g.node? b).map (·.name) = some b := by
    intro b hb
    obtain ⟨n, hn⟩ := exists_node?_of_mem_names (hg a b (mem_successors_iff.1 hb)).2
    rw [hn, Option.map_some, name_of_node? hn]
  rwa [List.filterMap_congr hname, List.filterMap_some]

theorem pairwise_lt_direct (a : String) : (g.direct a).Pairwise fun m n => m.name < n.name := by
  have hne : (g.direct a).Pairwise fun m n => m.name ≠ n.name :=
    List.pairwise_map.1 (nodup_names_direct hg hedges a)
  exact (pairwise_direct g a).imp₂ (fun _ _ hle hne => Std.lt_of_le_of_ne hle hne) hne

/-- Trails that go on from what a type needs are in order if those from each of these types are. -/
theorem pairwise_flatMap_direct {f : String → List (List String)}
    (hhead : ∀ b, ∀ p ∈ f b, ∃ q, p = b :: q) (hf : ∀ n : Node, (f n.name).Pairwise (· < ·))
    (a : String) : ((g.direct a).flatMap fun n => f n.name).Pairwise (· < ·) := by
  refine List.pairwise_flatMap.2 ⟨fun n _ => hf n, ?_⟩
  refine (pairwise_lt_direct hg hedges a).imp fun {m n} hlt p hp q hq => ?_
  obtain ⟨p, rfl⟩ := hhead _ _ hp
  obtain ⟨q, rfl⟩ := hhead _ _ hq
  exact List.cons_lt_cons_iff.2 (.inl hlt)

theorem pairwise_trailsBelow (path : List String) (name : String) :
    (g.trailsBelow path name).Pairwise (· < ·) := by
  induction path, name using trailsBelow.induct g with
  | case1 path name hs =>
    rw [trailsBelow_of_mem hs]
    exact List.pairwise_singleton _ _
  | case2 path name hs hk _ ih =>
    rw [trailsBelow_of_new hs hk]
    have hbelow := pairwise_flatMap_direct hg hedges
      (fun _ _ => exists_cons_of_mem_trailsBelow) ih name
    refine List.pairwise_cons.2 ⟨fun p hp => ?_, List.pairwise_map.2 (hbelow.imp ?_)⟩
    · obtain ⟨q, hq, rfl⟩ := List.mem_map.1 hp
      obtain ⟨n, _, hq⟩ := List.mem_flatMap.1 hq
      obtain ⟨q, rfl⟩ := exists_cons_of_mem_trailsBelow hq
      exact List.cons_lt_cons_self.2 (List.nil_lt_cons _ _)
    · exact List.cons_lt_cons_self.2
  | case3 path name hs hk =>
    rw [trailsBelow_of_unknown hs hk]
    exact List.pairwise_singleton _ _

/-- **The list of trails** is in ascending order. -/
theorem pairwise_trails (root : String) : (g.trails root).Pairwise (· < ·) :=
  pairwise_flatMap_direct hg hedges (fun _ _ => exists_cons_of_mem_trailsBelow)
    (fun _ => pairwise_trailsBelow hg hedges _ _) root

end

end Wiring.Graph
