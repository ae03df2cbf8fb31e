import Mathlib.Data.List.Permutation
import Wiring.Proofs.Order.UntilFailure
import Wiring.Proofs.Walk.Cursor

/-!
# What a walk comes to

The events of a walk that does not fail are the block of its component, then those of the modules
that can be reached, nearest first, then those of the classes that are needed. Cycles among the
modules or classes do not matter: each has one block.
-/

namespace Wiring.Model

open Walk (Event IsBlock)

variable {m : Model} {root : String}

/-- What a walk from `root` reports: these blocks, and no others. -/
structure Traversed (m : Model) (root : String) (component : TypeDecl)
    (modules classes : List TypeDecl) (events : List Event) : Prop where
  get?_root : m.get? root = some component
  kind_eq : component.kind = .component
  /-- Read event by event, the walk ends after these. -/
  yields : Cursor.Yields m (.start root) events none
  events_eq : events = componentBlock component ++ modules.flatMap m.moduleBlock ++
    classes.flatMap m.classBlock
  isBlock_component : IsBlock .component component (componentBlock component)
  isBlock_module : ∀ d ∈ modules, IsBlock .module d (m.moduleBlock d)
  isBlock_class : ∀ d ∈ classes, IsBlock .class d (m.classBlock d)
  begun_eq : events.filterMap Event.begun? =
    (.component, component) :: (modules.map (.module, ·) ++ classes.map (.class, ·))
  mem_modules_iff : ∀ name, name ∈ modules.map (·.name) ↔ ∃ n, m.Includes component n name
  nodup_modules : (modules.map (·.name)).Nodup
  pairwise_modules : (modules.map (·.name)).Pairwise fun a b =>
    m.includeDistance component a ≤ m.includeDistance component b
  mem_classes_iff : ∀ d, d ∈ classes ↔ m.Needed component events d
  nodup_classes : (classes.map (·.name)).Nodup

theorem component?_eq_ok_iff {c : TypeDecl} :
    m.component? root = .ok c ↔ m.get? root = some c ∧ c.kind = .component := by
  unfold component?
  split
  · next hnone => simp [hnone]
  · next d hd =>
    rw [hd]
    split
    · next hkind =>
      constructor
      · rintro ⟨⟩
        exact ⟨rfl, hkind⟩
      · intro h
        obtain ⟨⟨⟩, _⟩ := h
        rfl
    · next hkind =>
      refine ⟨nofun, ?_⟩
      intro h
      obtain ⟨⟨⟩, hcomponent⟩ := h
      exact absurd hcomponent hkind

/-- A walk fails at its root or at the first module reference that leads to no module. -/
theorem failure_eq_none_iff :
    (m.walk root).failure = none ↔
      ∃ c, m.component? root = .ok c ∧ ∀ r ∈ m.moduleOrder c, ∃ d, m.module? r = .ok d := by
  unfold walk
  split
  · next e he => simp [he]
  · next c hc =>
    simp only [hc, ← untilFailure_snd_eq_none_iff]
    split
    · next e he => simp [he]
    · next hnone => simp [hnone]

/-- Provides methods are reported by the blocks of modules only. -/
theorem providesMethod_mem_iff {c owner declaring : TypeDecl} {modules classes : List TypeDecl}
    {method : Method} :
    Event.providesMethod owner declaring method ∈
        componentBlock c ++ modules.flatMap m.moduleBlock ++ classes.flatMap m.classBlock ↔
      Event.providesMethod owner declaring method ∈ modules.flatMap m.moduleBlock := by
  rw [List.mem_append, List.mem_append]
  constructor
  · rintro ((h | h) | h)
    · cases isBlock_componentBlock.subject_eq h
    · exact h
    · obtain ⟨d, _, h⟩ := List.mem_flatMap.1 h
      cases isBlock_classBlock.subject_eq h
  · intro h
    exact .inl (.inr h)

/-- **A walk that does not fail** ends, and comes to every module that can be reached and every
class that is needed, once. -/
theorem traversed_of_failure_eq_none (h : (m.walk root).failure = none) :
    ∃ component modules classes,
      m.Traversed root component modules classes (m.walk root).events := by
  obtain ⟨c, hc, hmodules⟩ := failure_eq_none_iff.1 h
  have hnone := untilFailure_snd_eq_none_iff.2 hmodules
  have hyields := Cursor.yields_walk m root
  rw [h] at hyields
  obtain ⟨hroot, hkind⟩ := component?_eq_ok_iff.1 hc
  let modules := (untilFailure m.module? (m.moduleOrder c)).1
  let classes := m.classOrder (m.requestedClasses (componentBlock c ++ modules.flatMap m.moduleBlock))
  have hevents : (m.walk root).events =
      componentBlock c ++ modules.flatMap m.moduleBlock ++ classes.flatMap m.classBlock := by
    simp only [walk, hc, hnone]
    rfl
  -- a reference leads to the module of its name
  have hnames : modules.map (·.name) = (m.moduleOrder c).map ModuleRef.name :=
    map_untilFailure (fun r d hd => name_of_get? (module?_eq_ok_iff.1 hd).1) hnone
  refine ⟨c, modules, classes, ?_⟩
  exact
    { get?_root := hroot
      kind_eq := hkind
      yields := hyields
      events_eq := hevents
      isBlock_component := isBlock_componentBlock
      isBlock_module := fun _ _ => isBlock_moduleBlock
      isBlock_class := fun _ _ => isBlock_classBlock
      begun_eq := by
        rw [hevents, List.filterMap_append, List.filterMap_append,
          isBlock_componentBlock.filterMap_begun?,
          Walk.filterMap_begun?_flatMap fun _ => isBlock_moduleBlock,
          Walk.filterMap_begun?_flatMap fun _ => isBlock_classBlock]
        rfl
      mem_modules_iff := by
        intro name
        rw [hnames]
        exact mem_names_moduleOrder_iff hmodules
      nodup_modules := by
        rw [hnames]
        exact BreadthFirst.nodup_keys_visit.1
      pairwise_modules := by
        rw [hnames, List.pairwise_map]
        exact pairwise_moduleOrder hmodules
      mem_classes_iff := by
        intro d
        rw [hevents]
        exact mem_classOrder_iff_needed fun _ _ _ => providesMethod_mem_iff
      nodup_classes := BreadthFirst.nodup_keys_visit.1 }

/-! ## A walk among cycles

Two modules that include each other and themselves, two classes that need each other, and a class
that is its own superclass. -/

def cyclicModel : Model :=
  Model.empty.insertAll
    [ { name := "app.Root", kind := .component, modules := ["app.A", "app.A"]
        methods := [{ name := "client", returns := .declared "app.Client" [] }] },
      { name := "app.A", kind := .module, modules := ["app.B", "app.A"] },
      { name := "app.B", kind := .module, modules := ["app.A"]
        methods :=
          [ { name := "value", returns := .string, provides := true
              parameters :=
                [{ name := "base", type := .declared "dagger.Lazy" [.declared "app.Base" []] }] } ] },
      { name := "app.Client"
        constructors :=
          [ { name := "<init>", inject := true
              parameters := [{ name := "server", type := .declared "app.Server" [] }] } ] },
      { name := "app.Server", superclass := some "app.Base"
        fields := [{ name := "client", type := .declared "app.Client" [], inject := true }] },
      { name := "app.Base", superclass := some "app.Base" } ]

theorem failure_cyclicModel : (cyclicModel.walk "app.Root").failure = none := by
  cbv

theorem traversed_example :
    (cyclicModel.walk "app.Root").failure = none ∧
      (∃ component modules classes, cyclicModel.Traversed "app.Root" component modules classes
        (cyclicModel.walk "app.Root").events) ∧
      ((cyclicModel.walk "app.Root").events.filterMap Event.begun?).map (fun b => (b.1, b.2.name)) =
        [ (.component, "app.Root"), (.module, "app.A"), (.module, "app.B"), (.class, "app.Client"),
          (.class, "app.Base"), (.class, "app.Server") ] :=
  ⟨failure_cyclicModel, traversed_of_failure_eq_none failure_cyclicModel, by cbv⟩

end Wiring.Model
