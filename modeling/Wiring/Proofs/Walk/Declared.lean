import Wiring.Proofs.Walk.Traversal

/-!
# The types of a walk

All types that a walk reports something about are declared, each under its own name: the component,
the modules, the classes, and those that declare their members.
-/

namespace Wiring.Model

open BreadthFirst (Path)
open Walk (Event IsBlock)

variable {m : Model} {root : String} {a b c d : TypeDecl}

/-! ## Declared types -/

theorem mem_types_of_get? {name : String} (h : m.get? name = some d) : d ∈ m.types :=
  List.mem_of_find?_eq_some h

/-- A type of a lineage is declared under its name. -/
theorem get?_of_mem_lineage {name : String} (h : d ∈ m.lineage name) : m.get? d.name = some d := by
  refine BreadthFirst.forall_mem_visit (P := fun d => m.get? d.name = some d) ?_ ?_ d h
  · intro d hd
    exact get?_name_of_get? (Option.mem_toList.1 hd)
  · intro d _ parent hparent
    obtain ⟨_, _, hparent⟩ := Option.bind_eq_some_iff.1 (Option.mem_toList.1 hparent)
    exact get?_name_of_get? hparent

theorem eq_of_name_eq (ha : m.get? a.name = some a) (hb : m.get? b.name = some b)
    (h : a.name = b.name) : a = b := by
  rw [h, hb] at ha
  exact (Option.some.inj ha).symm

theorem mem_of_mem_providesMethods {x : TypeDecl × Method} (h : x ∈ m.providesMethods a) :
    m.get? x.1.name = some x.1 ∧ x.2 ∈ x.1.methods := by
  obtain ⟨declaring, hdeclaring, hx⟩ := List.mem_flatMap.1 (mem_of_mem_firstPerKey h)
  obtain ⟨method, hmethod, rfl⟩ := List.mem_map.1 hx
  exact ⟨get?_of_mem_lineage hdeclaring, (List.mem_filter.1 hmethod).1⟩

/-! ## Modules and classes -/

/-- The modules that a walk from the component `c` comes to before it fails, if it does. -/
def walkedModules (m : Model) (c : TypeDecl) : List TypeDecl :=
  (untilFailure m.module? (m.moduleOrder c)).1

/-- The classes that a component and its modules ask for at first. -/
def firstClasses (m : Model) (c : TypeDecl) : List TypeDecl :=
  m.requestedClasses (componentBlock c ++ (m.walkedModules c).flatMap m.moduleBlock)

/-- The classes that a walk from the component `c` comes to; none if it fails. -/
def walkedClasses (m : Model) (c : TypeDecl) : List TypeDecl :=
  match (untilFailure m.module? (m.moduleOrder c)).2 with
  | none => m.classOrder (m.firstClasses c)
  | some _ => []

/-- The blocks of the component `c`, its modules and the classes that are needed. -/
def reported (m : Model) (c : TypeDecl) : List Event :=
  componentBlock c ++ (m.walkedModules c).flatMap m.moduleBlock ++
    (m.classOrder (m.firstClasses c)).flatMap m.classBlock

/-- What a walk that does not fail reports. -/
theorem exists_events_eq (h : (m.walk root).failure = none) :
    ∃ c, m.component? root = .ok c ∧ (∀ r ∈ m.moduleOrder c, ∃ d, m.module? r = .ok d) ∧
      (m.walk root).events = m.reported c := by
  obtain ⟨c, hc, hmodules⟩ := failure_eq_none_iff.1 h
  have hnone := untilFailure_snd_eq_none_iff.2 hmodules
  refine ⟨c, hc, hmodules, ?_⟩
  simp only [walk, hc, hnone]
  rfl

theorem get?_of_mem_walkedModules (h : d ∈ m.walkedModules c) : m.get? d.name = some d := by
  obtain ⟨r, _, hr⟩ := exists_of_mem_untilFailure h
  exact get?_name_of_get? (module?_eq_ok_iff.1 hr).1

theorem get?_of_mem_firstClasses : ∀ d ∈ m.firstClasses c, m.get? d.name = some d :=
  fun _ hd => get?_of_mem_requestedClasses hd

/-- A reference leads to the module of its name. -/
theorem name_of_module? {r : ModuleRef} (h : m.module? r = .ok d) : d.name = r.name :=
  name_of_get? (module?_eq_ok_iff.1 h).1

theorem prefix_names_walkedModules :
    (m.walkedModules c).map (·.name) <+: (m.moduleOrder c).map ModuleRef.name :=
  map_untilFailure_prefix (fun _ _ hd => name_of_module? hd) _

theorem names_walkedModules (h : ∀ r ∈ m.moduleOrder c, ∃ d, m.module? r = .ok d) :
    (m.walkedModules c).map (·.name) = (m.moduleOrder c).map ModuleRef.name :=
  map_untilFailure (fun _ _ hd => name_of_module? hd) (untilFailure_snd_eq_none_iff.2 h)

theorem mem_classOrder_of_mem_walkedClasses (h : d ∈ m.walkedClasses c) :
    d ∈ m.classOrder (m.firstClasses c) := by
  unfold walkedClasses at h
  split at h
  · exact h
  · cases h

/-! ## Blocks -/

variable {modules classes : List TypeDecl}

theorem beginModule_mem_iff :
    .beginModule d ∈ componentBlock c ++ modules.flatMap m.moduleBlock ++
        classes.flatMap m.classBlock ↔ d ∈ modules := by
  rw [List.mem_append, List.mem_append, List.mem_flatMap, List.mem_flatMap]
  constructor
  · rintro ((hmem | ⟨d', hd', hmem⟩) | ⟨d', _, hmem⟩)
    · cases isBlock_componentBlock.subject_eq hmem
    · cases isBlock_moduleBlock.subject_eq hmem
      exact hd'
    · cases isBlock_classBlock.subject_eq hmem
  · intro hd
    exact .inl (.inr ⟨d, hd, List.mem_append_left _ List.mem_cons_self⟩)

theorem beginClass_mem_iff :
    .beginClass d ∈ componentBlock c ++ modules.flatMap m.moduleBlock ++
        classes.flatMap m.classBlock ↔ d ∈ classes := by
  rw [List.mem_append, List.mem_append, List.mem_flatMap, List.mem_flatMap]
  constructor
  · rintro ((hmem | ⟨d', _, hmem⟩) | ⟨d', hd', hmem⟩)
    · cases isBlock_componentBlock.subject_eq hmem
    · cases isBlock_moduleBlock.subject_eq hmem
    · cases isBlock_classBlock.subject_eq hmem
      exact hd'
  · intro hd
    exact .inr ⟨d, hd, List.mem_append_left _ List.mem_cons_self⟩

/-- The blocks of a walk, each about another declared type. -/
structure Blocks (m : Model) (root : String) (component : TypeDecl)
    (modules classes : List TypeDecl) : Prop where
  events_eq : (m.walk root).events = componentBlock component ++ modules.flatMap m.moduleBlock ++
    classes.flatMap m.classBlock
  get?_component : m.get? component.name = some component
  get?_module : ∀ d ∈ modules, m.get? d.name = some d
  get?_class : ∀ d ∈ classes, m.get? d.name = some d
  nodup_modules : modules.Nodup
  nodup_classes : classes.Nodup

namespace Blocks

variable {component : TypeDecl} (h : m.Blocks root component modules classes)

include h

theorem beginModule_mem_iff : .beginModule d ∈ (m.walk root).events ↔ d ∈ modules := by
  rw [h.events_eq]
  exact Model.beginModule_mem_iff

theorem beginClass_mem_iff : .beginClass d ∈ (m.walk root).events ↔ d ∈ classes := by
  rw [h.events_eq]
  exact Model.beginClass_mem_iff

/-- A module has one block, and what comes before and after it is about other types. -/
theorem exists_moduleBlock (hd : d ∈ modules) :
    ∃ before after, (m.walk root).events = before ++ m.moduleBlock d ++ after ∧
      ∀ e ∈ before ++ after, e.subject ≠ (.module, d) := by
  have hblock : ∀ x, IsBlock .module x (m.moduleBlock x) := fun _ => isBlock_moduleBlock
  obtain ⟨before, after, hmodules, hother⟩ := Walk.exists_flatMap_eq hblock h.nodup_modules hd
  refine ⟨componentBlock component ++ before, after ++ classes.flatMap m.classBlock, ?_, ?_⟩
  · simp only [h.events_eq, hmodules, List.append_assoc]
  · intro e he hsubject
    simp only [List.mem_append, List.mem_flatMap] at he hother
    rcases he with (he | he) | (he | ⟨x, _, he⟩)
    · cases (isBlock_componentBlock.subject_eq he).symm.trans hsubject
    · exact hother e (.inl he) hsubject
    · exact hother e (.inr he) hsubject
    · cases (isBlock_classBlock.subject_eq he).symm.trans hsubject

/-- A class has one block, and what comes before and after it is about other types. -/
theorem exists_classBlock (hd : d ∈ classes) :
    ∃ before after, (m.walk root).events = before ++ m.classBlock d ++ after ∧
      ∀ e ∈ before ++ after, e.subject ≠ (.class, d) := by
  have hblock : ∀ x, IsBlock .class x (m.classBlock x) := fun _ => isBlock_classBlock
  obtain ⟨before, after, hclasses, hother⟩ := Walk.exists_flatMap_eq hblock h.nodup_classes hd
  refine ⟨componentBlock component ++ modules.flatMap m.moduleBlock ++ before, after, ?_, ?_⟩
  · simp only [h.events_eq, hclasses, List.append_assoc]
  · intro e he hsubject
    simp only [List.mem_append, List.mem_flatMap] at he hother
    rcases he with ((he | ⟨x, _, he⟩) | he) | he
    · cases (isBlock_componentBlock.subject_eq he).symm.trans hsubject
    · cases (isBlock_moduleBlock.subject_eq he).symm.trans hsubject
    · exact hother e (.inl he) hsubject
    · exact hother e (.inr he) hsubject

end Blocks

/-- A walk consists of blocks, whether it fails or not. -/
theorem blocks_of_component (hc : m.component? root = .ok c) :
    m.Blocks root c (m.walkedModules c) (m.walkedClasses c) where
  events_eq := by
    unfold walk walkedClasses
    rw [hc]
    dsimp only
    cases (untilFailure m.module? (m.moduleOrder c)).2 with
    | none => rfl
    | some e => exact (List.append_nil _).symm
  get?_component := get?_name_of_get? (component?_eq_ok_iff.1 hc).1
  get?_module := fun _ hd => get?_of_mem_walkedModules hd
  get?_class := by
    intro d hd
    obtain ⟨n, hpath⟩ := (mem_classOrder_iff get?_of_mem_firstClasses).1
      (mem_classOrder_of_mem_walkedClasses hd)
    exact get?_of_path get?_of_mem_firstClasses hpath
  nodup_modules := .of_map TypeDecl.name <|
    BreadthFirst.nodup_keys_visit.1.sublist prefix_names_walkedModules.sublist
  nodup_classes := by
    unfold walkedClasses
    split
    · exact .of_map TypeDecl.name BreadthFirst.nodup_keys_visit.1
    · exact List.nodup_nil

/-- A walk that does not fail comes to every class that its events ask for. -/
theorem mem_walkedClasses_of_requested (hc : m.component? root = .ok c)
    (h : (m.walk root).failure = none) (hd : d ∈ m.requestedClasses (m.walk root).events) :
    d ∈ m.walkedClasses c := by
  have hclasses : m.walkedClasses c = m.classOrder (m.firstClasses c) := by
    obtain ⟨c', hc', hmodules⟩ := failure_eq_none_iff.1 h
    cases hc.symm.trans hc'
    rw [walkedClasses, untilFailure_snd_eq_none_iff.2 hmodules]
  have hwalked : ∀ x, x ∈ m.classOrder (m.firstClasses c) ↔
      ∃ n, Path m.successors (m.firstClasses c) n x :=
    fun _ => mem_classOrder_iff get?_of_mem_firstClasses
  rw [(blocks_of_component hc).events_eq, requestedClasses_append, List.mem_append] at hd
  rw [hclasses] at hd ⊢
  rcases hd with hd | hd
  · exact (hwalked d).2 ⟨0, .start hd⟩
  · obtain ⟨owner, howner, hd⟩ := mem_requestedClasses_flatMap_iff.1 hd
    obtain ⟨n, hpath⟩ := (hwalked owner).1 howner
    exact (hwalked d).2 ⟨n + 1, .step hpath hd⟩

theorem blocks_of_failure_eq_none (h : (m.walk root).failure = none) :
    ∃ component modules classes, m.Blocks root component modules classes := by
  obtain ⟨c, hc, -⟩ := failure_eq_none_iff.1 h
  exact ⟨c, _, _, blocks_of_component hc⟩

end Wiring.Model
