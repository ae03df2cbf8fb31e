import Wiring.CommandLine.Run
import Wiring.Proofs.Graph.Printing
import Wiring.Proofs.Walk.Declared
import Wiring.Proofs.Walk.Failure

/-!
# The graph of a walk

A graph has the edges that the events of a walk reveal. The event that makes a walk come to a
module or a class reveals that the type it is about needs this module or class. So the root needs
everything in the graph, and a tree drawn from the root shows a mark if there is a cycle anywhere.
-/

namespace Wiring.Model

open BreadthFirst (Path)
open CommandLine (Surroundings treeOutcome treeText)
open Wiring.Graph (Line)
open Walk (Event Phase)

variable {m : Model} {g : Graph} {root name a b : String} {c d : TypeDecl} {e : Event}
  {es : List Event} {t : TypeRef} {n : Nat}

/-- How the graph of a walk from `root`, its tree and the output of the command line agree. -/
structure Rooted (m : Model) (root : String) (g : Graph) : Prop where
  mem_names : ∀ name ∈ g.names, name = root ∨ name ∈ g.transitive root
  begun_mem : ∀ phase d, (phase, d) ∈ (m.walk root).events.filterMap Event.begun? → d.name ∈ g.names
  hasCycles_iff : g.hasCycles ↔ ∃ l ∈ g.lines root, l.isCircular
  treeLines_eq : ∃ n, g.node? root = some n ∧
    g.treeLines root = n.text :: (g.lines root).map Line.text
  tree_eq : ∃ n, g.node? root = some n ∧
    g.tree root = String.join ((n.text :: (g.lines root).map Line.text).map (· ++ "\n"))
  /-- The printer ends, and it has printed the tree. -/
  printTree_eq : g.printTree root {} = some ((), ⟨g.tree root, {root}⟩)
  /-- The note on cycles stands below a tree with a mark, and below no other. -/
  stdout_eq : ∀ s : Surroundings, (treeOutcome s m root).stdout = g.tree root ++
    if (g.lines root).any Line.isCircular then
      Text.Style.yellow.paint s.styled "(graph contains cycles)" ++ "\n"
    else ""

/-! ## What an event adds -/

/-- An event shows that one type needs another. -/
def Reveals (m : Model) (e : Event) (a b : String) : Prop :=
  ∃ d targets, m.dependencies e = some (d, targets) ∧ a = d.name ∧ ∃ n ∈ targets, b = n.name

/-- An event begins the component of this name or shows that the type needs or is needed. -/
def Mentions (m : Model) (e : Event) (name : String) : Prop :=
  (∃ c, e = .beginComponent c ∧ name = c.name) ∨
    ∃ other, m.Reveals e name other ∨ m.Reveals e other name

theorem addEvent_cases (m : Model) (g : Graph) (e : Event) :
    (∃ c, e = .beginComponent c ∧ m.addEvent g e = g.addNode (m.node c.name)) ∨
      (∃ d targets, m.dependencies e = some (d, targets) ∧
        m.addEvent g e = targets.foldl (fun g n => g.addDependency (m.node d.name) n) g) ∨
      (m.dependencies e = none ∧ (∀ c, e ≠ .beginComponent c) ∧ m.addEvent g e = g) := by
  unfold addEvent
  split
  · exact .inl ⟨_, rfl, rfl⟩
  · next hd => exact .inr (.inl ⟨_, _, hd, rfl⟩)
  · next hcomponent hnone => exact .inr (.inr ⟨hnone, fun c h => hcomponent c h, rfl⟩)

theorem edge_addEvent_iff : (m.addEvent g e).Edge a b ↔ g.Edge a b ∨ m.Reveals e a b := by
  rcases m.addEvent_cases g e with ⟨c, rfl, hadd⟩ | ⟨d, targets, hd, hadd⟩ | ⟨hnone, _, hadd⟩
  · rw [hadd, Graph.Edge, Graph.edges_addNode]
    simp [Reveals, dependencies, Graph.Edge]
  · rw [hadd, Graph.edge_foldl_addDependency_iff]
    simp [Reveals, hd, node]
  · rw [hadd]
    simp [Reveals, hnone]

theorem mem_names_addEvent_iff :
    name ∈ (m.addEvent g e).names ↔ name ∈ g.names ∨ m.Mentions e name := by
  rcases m.addEvent_cases g e with ⟨c, rfl, hadd⟩ | ⟨d, targets, hd, hadd⟩ | ⟨hnone, hc, hadd⟩
  · rw [hadd, Graph.mem_names_addNode_iff]
    simp [Mentions, Reveals, dependencies, node]
  · have hreveals : ∀ a b, m.Reveals e a b ↔ a = d.name ∧ ∃ n ∈ targets, b = n.name := by
      simp [Reveals, hd]
    have hcomponent : ∀ c, e ≠ .beginComponent c := by
      rintro c rfl
      cases hd
    rw [hadd, Graph.mem_names_foldl_addDependency_iff, Mentions]
    simp only [hreveals]
    constructor
    · rintro (h | ⟨n, hn, rfl | rfl⟩)
      · exact .inl h
      · exact .inr (.inr ⟨n.name, .inl ⟨rfl, n, hn, rfl⟩⟩)
      · exact .inr (.inr ⟨d.name, .inr ⟨rfl, n, hn, rfl⟩⟩)
    · rintro (h | ⟨c, hc, _⟩ | ⟨_, ⟨rfl, n, hn, _⟩ | ⟨_, n, hn, rfl⟩⟩)
      · exact .inl h
      · exact absurd hc (hcomponent c)
      · exact .inr ⟨n, hn, .inl rfl⟩
      · exact .inr ⟨n, hn, .inr rfl⟩
  · rw [hadd]
    simp [Mentions, Reveals, hnone, hc]

theorem closed_addEvent (hg : g.Closed) : (m.addEvent g e).Closed := by
  rcases m.addEvent_cases g e with ⟨c, rfl, hadd⟩ | ⟨d, targets, _, hadd⟩ | ⟨_, _, hadd⟩
  · rw [hadd]
    exact hg.addNode
  · rw [hadd]
    exact hg.foldl_addDependency
  · rwa [hadd]

/-! ## What a walk adds -/

theorem edge_foldl_addEvent_iff :
    (es.foldl m.addEvent g).Edge a b ↔ g.Edge a b ∨ ∃ e ∈ es, m.Reveals e a b := by
  induction es generalizing g with
  | nil => simp
  | cons e es ih => rw [List.foldl_cons, ih, edge_addEvent_iff, List.exists_mem_cons_iff, or_assoc]

theorem mem_names_foldl_addEvent_iff :
    name ∈ (es.foldl m.addEvent g).names ↔ name ∈ g.names ∨ ∃ e ∈ es, m.Mentions e name := by
  induction es generalizing g with
  | nil => simp
  | cons e es ih =>
    rw [List.foldl_cons, ih, mem_names_addEvent_iff, List.exists_mem_cons_iff, or_assoc]

theorem closed_foldl_addEvent (hg : g.Closed) : (es.foldl m.addEvent g).Closed := by
  induction es generalizing g with
  | nil => exact hg
  | cons e es ih => exact ih (closed_addEvent hg)

theorem graph_eq_ok_iff :
    m.graph root = .ok g ↔
      (m.walk root).failure = none ∧ g = (m.walk root).events.foldl m.addEvent Graph.empty := by
  unfold graph
  dsimp only
  cases (m.walk root).failure with
  | none => simp [eq_comm]
  | some e => simp

/-! ## What an event shows of its type -/

theorem subject_of_begun? {x : Phase × TypeDecl} (h : e.begun? = some x) : e.subject = x := by
  cases e <;> cases h <;> rfl

/-- An event shows what the type that it is about needs. -/
theorem Reveals.eq_subject (h : m.Reveals e a b) : a = e.subject.2.name := by
  obtain ⟨d, targets, hd, rfl, _⟩ := h
  cases e <;> cases hd <;> rfl

theorem name_typeNode (h : m.requested? t = some d) : (m.typeNode t).name = d.name := by
  obtain ⟨name, hname, hd⟩ := Option.bind_eq_some_iff.1 h
  rw [typeNode, hname, name_of_get? hd]
  rfl

/-- An event that asks for a class reveals that the type needs it. -/
theorem reveals_of_mem_requests (ht : t ∈ e.requests) (hd : m.requested? t = some d) :
    m.Reveals e e.subject.2.name d.name := by
  rw [← name_typeNode hd]
  cases e with
  | providesMethod owner declaring method =>
    obtain ⟨p, hp, rfl⟩ := List.mem_map.1 ht
    exact ⟨_, _, rfl, rfl, _, List.mem_map_of_mem hp, rfl⟩
  | provisionMethod | constructorParameter | methodParameter | field =>
    cases List.mem_singleton.1 ht
    exact ⟨_, _, rfl, rfl, _, List.mem_singleton_self _, rfl⟩
  | beginComponent | componentModule | endComponent | beginModule | includedModule | endModule
  | beginClass | endClass => cases ht

theorem exists_reveals_of_mem_modules_component (h : name ∈ c.modules) :
    ∃ e ∈ componentBlock c, m.Reveals e c.name name := by
  refine ⟨.componentModule c name, ?_, _, _, rfl, rfl, _, List.mem_singleton_self _, rfl⟩
  simp [componentBlock, h]

theorem exists_reveals_of_mem_modules_module (h : name ∈ d.modules) :
    ∃ e ∈ m.moduleBlock d, m.Reveals e d.name name := by
  refine ⟨.includedModule d name, ?_, _, _, rfl, rfl, _, List.mem_singleton_self _, rfl⟩
  simp [moduleBlock, h]

/-! ## What the root needs -/

section

variable (hmodules : ∀ r ∈ m.moduleOrder c, ∃ d, m.module? r = .ok d)

include hmodules

theorem mem_walkedModules_iff :
    d ∈ m.walkedModules c ↔ m.Leads c d.name ∧ m.get? d.name = some d := by
  have hnames : d.name ∈ (m.walkedModules c).map (·.name) ↔ m.Leads c d.name := by
    rw [names_walkedModules hmodules, List.mem_map, exists_mem_moduleOrder_iff]
  constructor
  · intro h
    exact ⟨hnames.1 (List.mem_map_of_mem h), get?_of_mem_walkedModules h⟩
  · rintro ⟨h, hd⟩
    obtain ⟨d', hd', hname⟩ := List.mem_map.1 (hnames.2 h)
    rwa [← eq_of_name_eq (get?_of_mem_walkedModules hd') hd hname]

variable (hedge : ∀ e ∈ m.reported c, ∀ a b, m.Reveals e a b → g.Edge a b)

include hedge

/-- A component needs every name that its references lead to. -/
theorem needs_of_leads (h : m.Leads c name) : g.Needs c.name name := by
  induction h with
  | direct h =>
    obtain ⟨e, he, hreveals⟩ := exists_reveals_of_mem_modules_component (m := m) h
    have hmem : e ∈ m.reported c := List.mem_append_left _ (List.mem_append_left _ he)
    exact .single (hedge e hmem _ _ hreveals)
  | @step name included d hleads hd _ hi ih =>
    have hname : d.name = name := name_of_get? hd
    have hwalked : d ∈ m.walkedModules c :=
      (mem_walkedModules_iff hmodules).2 ⟨by rwa [hname], get?_name_of_get? hd⟩
    obtain ⟨e, he, hreveals⟩ := exists_reveals_of_mem_modules_module (m := m) hi
    have hmem : e ∈ m.reported c :=
      List.mem_append_left _ (List.mem_append_right _ (List.mem_flatMap.2 ⟨d, hwalked, he⟩))
    rw [hname] at hreveals
    exact .tail ih (hedge e hmem _ _ hreveals)

theorem needs_of_mem_walkedModules (h : d ∈ m.walkedModules c) : g.Needs c.name d.name :=
  needs_of_leads hmodules hedge ((mem_walkedModules_iff hmodules).1 h).1

/-- A component needs every class that the walk comes to. -/
theorem needs_of_path (h : Path m.successors (m.firstClasses c) n d) : g.Needs c.name d.name := by
  induction h with
  | @start d h =>
    obtain ⟨e, he, t, ht, hd⟩ := mem_requestedClasses_iff.1 h
    have hstep : g.Edge e.subject.2.name d.name :=
      hedge e (List.mem_append_left _ he) _ _ (reveals_of_mem_requests ht hd)
    rcases List.mem_append.1 he with he | he
    · rw [isBlock_componentBlock.subject_eq he] at hstep
      exact .single hstep
    · obtain ⟨owner, howner, he⟩ := List.mem_flatMap.1 he
      rw [isBlock_moduleBlock.subject_eq he] at hstep
      exact .tail (needs_of_mem_walkedModules hmodules hedge howner) hstep
  | @step n owner d hpath h ih =>
    obtain ⟨e, he, t, ht, hd⟩ := mem_requestedClasses_iff.1 h
    have howner : owner ∈ m.classOrder (m.firstClasses c) :=
      (mem_classOrder_iff get?_of_mem_firstClasses).2 ⟨n, hpath⟩
    have hmem : e ∈ m.reported c :=
      List.mem_append_right _ (List.mem_flatMap.2 ⟨owner, howner, he⟩)
    have hstep := hedge e hmem _ _ (reveals_of_mem_requests ht hd)
    rw [isBlock_classBlock.subject_eq he] at hstep
    exact .tail ih hstep

/-- Whatever a walk reports something about is its component, or the component needs it. -/
theorem eq_or_needs_of_mem_reported (he : e ∈ m.reported c) :
    e.subject.2.name = c.name ∨ g.Needs c.name e.subject.2.name := by
  rcases List.mem_append.1 he with he | he
  · rcases List.mem_append.1 he with he | he
    · exact .inl (by rw [isBlock_componentBlock.subject_eq he])
    · obtain ⟨owner, howner, he⟩ := List.mem_flatMap.1 he
      rw [isBlock_moduleBlock.subject_eq he]
      exact .inr (needs_of_mem_walkedModules hmodules hedge howner)
  · obtain ⟨owner, howner, he⟩ := List.mem_flatMap.1 he
    obtain ⟨n, hpath⟩ := (mem_classOrder_iff get?_of_mem_firstClasses).1 howner
    rw [isBlock_classBlock.subject_eq he]
    exact .inr (needs_of_path hmodules hedge hpath)

end

/-! ## Graphs of walks -/

section

variable (h : m.graph root = .ok g)

include h

theorem edge_graph_iff : g.Edge a b ↔ ∃ e ∈ (m.walk root).events, m.Reveals e a b := by
  rw [(graph_eq_ok_iff.1 h).2, edge_foldl_addEvent_iff]
  simp [Graph.Edge, Graph.empty]

theorem mem_names_graph_iff :
    name ∈ g.names ↔ ∃ e ∈ (m.walk root).events, m.Mentions e name := by
  rw [(graph_eq_ok_iff.1 h).2, mem_names_foldl_addEvent_iff]
  simp [Graph.names, Graph.empty]

theorem closed_graph : g.Closed := by
  rw [(graph_eq_ok_iff.1 h).2]
  exact closed_foldl_addEvent Graph.closed_empty

theorem subject_eq_root_or_needs (he : e ∈ (m.walk root).events) :
    e.subject.2.name = root ∨ g.Needs root e.subject.2.name := by
  obtain ⟨c, hc, hmodules, hevents⟩ := exists_events_eq (graph_eq_ok_iff.1 h).1
  have hroot : c.name = root := name_of_get? (component?_eq_ok_iff.1 hc).1
  have hedge : ∀ e ∈ m.reported c, ∀ a b, m.Reveals e a b → g.Edge a b := by
    intro e he a b hreveals
    rw [← hevents] at he
    exact (edge_graph_iff h).2 ⟨e, he, hreveals⟩
  rw [hevents] at he
  rw [← hroot]
  exact eq_or_needs_of_mem_reported hmodules hedge he

theorem root_mem_names : root ∈ g.names := by
  obtain ⟨c, hc, _, hevents⟩ := exists_events_eq (graph_eq_ok_iff.1 h).1
  have hroot : root = c.name := (name_of_get? (component?_eq_ok_iff.1 hc).1).symm
  refine (mem_names_graph_iff h).2 ⟨.beginComponent c, ?_, .inl ⟨c, rfl, hroot⟩⟩
  rw [hevents]
  exact List.mem_append_left _ (List.mem_append_left _ List.mem_cons_self)

/-- What the walk begins is in the graph. -/
theorem mem_names_of_begun {phase : Phase}
    (hbegun : (phase, d) ∈ (m.walk root).events.filterMap Event.begun?) : d.name ∈ g.names := by
  obtain ⟨e, he, hbegun⟩ := List.mem_filterMap.1 hbegun
  have hsubject := subject_eq_root_or_needs h he
  rw [subject_of_begun? hbegun] at hsubject
  rcases hsubject with hname | hneeds
  · rw [hname]
    exact root_mem_names h
  · exact (Graph.mem_names_of_needs (closed_graph h) hneeds).2

/-- **The root needs everything in the graph.** -/
theorem eq_root_or_needs (hname : name ∈ g.names) : name = root ∨ g.Needs root name := by
  obtain ⟨e, he, hmention⟩ := (mem_names_graph_iff h).1 hname
  have hsubject := subject_eq_root_or_needs h he
  rcases hmention with ⟨c, rfl, rfl⟩ | ⟨other, hreveals | hreveals⟩
  · exact hsubject
  · rwa [← hreveals.eq_subject] at hsubject
  · have hedge : g.Edge other name := (edge_graph_iff h).2 ⟨e, he, hreveals⟩
    rw [← hreveals.eq_subject] at hsubject
    rcases hsubject with rfl | hneeds
    · exact .inr (.single hedge)
    · exact .inr (.tail hneeds hedge)

/-- **The tree shows a mark exactly if the graph has cycles**: the root leads to each of them. -/
theorem hasCycles_graph_iff : g.hasCycles ↔ ∃ l ∈ g.lines root, l.isCircular := by
  have hclosed := closed_graph h
  rw [Graph.hasCycles_iff hclosed, Graph.exists_isCircular_iff hclosed]
  constructor
  · rintro ⟨a, ha⟩
    rcases eq_root_or_needs h (Graph.mem_names_of_needs hclosed ha).1 with rfl | hneeds
    · exact ⟨a, .refl, ha⟩
    · exact ⟨a, hneeds.to_reflTransGen, ha⟩
  · rintro ⟨a, _, ha⟩
    exact ⟨a, ha⟩

end

/-- **The graph of a walk** holds what the walk begins, the root needs all of it, and the tree of the
root shows a mark, with the note on cycles below it, exactly if there is a cycle. -/
theorem rooted_of_graph (h : m.graph root = .ok g) : m.Rooted root g := by
  obtain ⟨n, hn⟩ := Graph.exists_node?_of_mem_names (root_mem_names h)
  exact
    { mem_names := by
        intro name hname
        rw [Graph.mem_transitive_iff (closed_graph h)]
        exact eq_root_or_needs h hname
      begun_mem := fun _ _ => mem_names_of_begun h
      hasCycles_iff := hasCycles_graph_iff h
      treeLines_eq := ⟨n, hn, by rw [Graph.treeLines, hn]⟩
      tree_eq := ⟨n, hn, by rw [Graph.tree, Graph.treeLines, hn]⟩
      printTree_eq := Graph.printTree_eq (closed_graph h) hn
      stdout_eq := by
        intro s
        have hany : (g.lines root).any Line.isCircular = g.hasCycles := by
          rw [Bool.eq_iff_iff, hasCycles_graph_iff h, List.any_eq_true]
        rw [treeOutcome, h, hany]
        rfl }

/-! The graph of modules and classes that need each other. The tree shows the cycle of the modules
below the first of them, the one of the classes below the other. -/

def cyclicGraph : Graph where
  nodes :=
    [ ⟨"app.Root", some .component⟩, ⟨"app.A", some .module⟩, ⟨"app.Client", some .class⟩,
      ⟨"app.B", some .module⟩, ⟨"app.Base", some .class⟩, ⟨"app.Server", some .class⟩ ]
  edges :=
    [ ("app.Root", "app.A"), ("app.Root", "app.Client"), ("app.A", "app.B"), ("app.A", "app.A"),
      ("app.B", "app.A"), ("app.B", "app.Base"), ("app.Client", "app.Server"),
      ("app.Server", "app.Client") ]

theorem graph_cyclicModel : cyclicModel.graph "app.Root" = .ok cyclicGraph := by
  cbv

theorem rooted_cyclicGraph :
    cyclicModel.graph "app.Root" = .ok cyclicGraph ∧ cyclicModel.Rooted "app.Root" cyclicGraph ∧
      cyclicGraph.hasCycles :=
  ⟨graph_cyclicModel, rooted_of_graph graph_cyclicModel, by cbv⟩

end Wiring.Model
