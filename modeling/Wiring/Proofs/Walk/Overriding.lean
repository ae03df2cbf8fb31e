import Wiring.Proofs.Order.Keys
import Wiring.Proofs.Walk.Declared

/-!
# Inherited and overridden methods

A module reports the provides methods that it declares or inherits, nearest first, and of those that
override each other only the nearest. Which ones these are is told here by their places among all
methods of the module and its superclasses. No other method leads to a class on behalf of the module.
-/

namespace Wiring

open BreadthFirst (fresh visit)
open Walk (Event IsBlock Phase)

/-- The method makes values for others: it is marked so, public and concrete, and has a result. -/
def Method.makesValue (method : Method) : Bool :=
  method.provides && method.visibility == .public && !method.isAbstract && !method.returns.isVoid

/-- A provides method that an event reports: the module, the type that declares it, the method. -/
def Walk.Event.provided? : Event → Option (TypeDecl × TypeDecl × Method)
  | .providesMethod owner declaring method => some (owner, declaring, method)
  | _ => none

namespace Model

variable {m : Model} {root : String} {d : TypeDecl} {seen : List String}

/-! ## Superclasses -/

theorem toList_eq_cons_iff {α : Type} {a? : Option α} {a : α} {as : List α} :
    a?.toList = a :: as ↔ a? = some a ∧ as = [] := by
  cases a? <;> simp [eq_comm]

/-- Superclass by superclass from a type, up to one that is not declared or whose name was met. -/
inductive SuperclassChain (m : Model) : List String → Option TypeDecl → List TypeDecl → Prop
  | undeclared {seen : List String} : SuperclassChain m seen none []
  | met {seen : List String} {d : TypeDecl} (h : d.name ∈ seen) :
    SuperclassChain m seen (some d) []
  | step {seen : List String} {d : TypeDecl} {ds : List TypeDecl} (h : d.name ∉ seen)
    (hrest : SuperclassChain m (d.name :: seen) (d.superclass.bind m.get?) ds) :
    SuperclassChain m seen (some d) (d :: ds)

theorem superclassChain_visit (d? : Option TypeDecl) (hd : ∀ d ∈ d?, m.get? d.name = some d) :
    m.SuperclassChain seen d?
      (visit (·.name) (fun d => (m.parent? d).toList) m.names seen d?.toList) := by
  generalize hqueue : d?.toList = queue
  induction seen, queue using BreadthFirst.visit.induct (·.name)
    (fun d => (m.parent? d).toList) m.names generalizing d? with
  | case1 seen =>
    rw [Option.toList_eq_nil_iff.1 hqueue, visit]
    exact .undeclared
  | case2 seen d rest hmet ih =>
    obtain ⟨rfl, rfl⟩ := toList_eq_cons_iff.1 hqueue
    rw [BreadthFirst.visit_cons_of_mem hmet, visit]
    exact .met hmet
  | case3 seen d rest hmet hscope _ ih =>
    obtain ⟨rfl, rfl⟩ := toList_eq_cons_iff.1 hqueue
    rw [visit, dif_neg hmet, dif_pos hscope]
    refine .step hmet (ih (m.parent? d) (fun parent hparent => ?_) rfl)
    obtain ⟨_, _, hparent⟩ := Option.bind_eq_some_iff.1 hparent
    exact get?_name_of_get? hparent
  | case4 seen d rest hmet hscope ih =>
    obtain ⟨rfl, rfl⟩ := toList_eq_cons_iff.1 hqueue
    exact absurd (name_mem_names_of_get? (hd d rfl)) hscope

/-- **The lineage of a type** is its chain of superclasses. -/
theorem superclassChain_lineage (m : Model) (name : String) :
    m.SuperclassChain [] (m.get? name) (m.lineage name) :=
  superclassChain_visit _ fun _ hd => get?_name_of_get? hd

/-! ## Reported methods -/

/-- The methods of a type and of its superclasses, each with the type that declares it: nearest
first, then as they are declared. -/
def lineageMethods (m : Model) (d : TypeDecl) : List (TypeDecl × Method) :=
  (m.lineage d.name).flatMap fun declaring => declaring.methods.map (declaring, ·)

/-- The method at this place makes values, and none does before it that has its name and parameter
types. -/
def IsNearest (m : Model) (d : TypeDecl) (i : Fin (m.lineageMethods d).length) : Prop :=
  IsFirst (fun x => (x.2.name, x.2.parameters.map (·.type))) (·.2.makesValue) (m.lineageMethods d) i

instance (m : Model) (d : TypeDecl) : DecidablePred (m.IsNearest d) :=
  fun _ => inferInstanceAs (Decidable (IsFirst _ _ _ _))

/-- The methods that a module reports. -/
def nearestMethods (m : Model) (d : TypeDecl) : List (TypeDecl × Method) :=
  ((List.finRange (m.lineageMethods d).length).filter fun i => m.IsNearest d i).map
    (m.lineageMethods d).get

/-- What a walk reports between the beginning and the end of the module `d`. -/
structure ReportsNearest (m : Model) (root : String) (d : TypeDecl) : Prop where
  lineage : m.SuperclassChain [] (m.get? d.name) (m.lineage d.name)
  exists_between : ∃ before inner after,
    (m.walk root).events = before ++ .beginModule d :: (inner ++ .endModule d :: after)
  /-- Between the two are the nearest methods of the module, in order, and no other ones; and classes
  are asked for by the parameters of these only. -/
  between : ∀ before inner after,
    (m.walk root).events = before ++ .beginModule d :: (inner ++ .endModule d :: after) →
    inner.filterMap Event.provided? = (m.nearestMethods d).map (d, ·) ∧
      m.requestedClasses inner =
        ((m.nearestMethods d).flatMap (·.2.parameters)).filterMap (m.requested? ·.type)
  nodup_keys : ((m.nearestMethods d).map (·.2.overrideKey)).Nodup
  /-- A method that makes values is represented by a nearest one, which is not behind it. -/
  represented : ∀ i : Fin (m.lineageMethods d).length,
    (m.lineageMethods d)[i].2.makesValue = true →
    ∃ j ≤ i, m.IsNearest d j ∧
      (m.lineageMethods d)[i].2.overrideKey = (m.lineageMethods d)[j].2.overrideKey
  /-- The cursor that begins the module puts into its queue what the parameters of these methods
  lead to, as far as it is new there, and nothing else. -/
  queued : ∀ c c' es, Cursor.advance m c = (.ok true, c') →
    c'.pending = c.pending ++ .beginModule d :: es →
    c'.classes = c.classes ++ fresh TypeDecl.name c.seen
      (((m.nearestMethods d).flatMap (·.2.parameters)).filterMap (m.requested? ·.type))

/-- The nearest methods are the provides methods of a lineage without those that are overridden. -/
theorem providesMethods_eq (m : Model) (d : TypeDecl) :
    m.providesMethods d = m.nearestMethods d := by
  have hfilter : ((m.lineage d.name).flatMap fun declaring =>
      declaring.providesMethods.map (declaring, ·)) =
        (m.lineageMethods d).filter (·.2.makesValue) := by
    rw [lineageMethods, List.filter_flatMap]
    refine List.flatMap_congr fun declaring _ => ?_
    rw [List.filter_map]
    rfl
  rw [providesMethods, hfilter]
  exact firstPerKey_filter_eq _ _ _

/-- What a module reports between its beginning and its end: the modules that it includes, then its
nearest methods. -/
def insideModule (m : Model) (d : TypeDecl) : List Event :=
  d.modules.map (.includedModule d) ++
    (m.nearestMethods d).map fun x => .providesMethod d x.1 x.2

theorem moduleBlock_eq (m : Model) (d : TypeDecl) :
    m.moduleBlock d = .beginModule d :: (m.insideModule d ++ [.endModule d]) := by
  rw [moduleBlock, providesMethods_eq]
  rfl

theorem filterMap_provided?_insideModule (m : Model) (d : TypeDecl) :
    (m.insideModule d).filterMap Event.provided? = (m.nearestMethods d).map (d, ·) := by
  have hmodules : (d.modules.map (Event.includedModule d)).filterMap Event.provided? = [] := by
    simp [Event.provided?]
  rw [insideModule, List.filterMap_append, hmodules, List.nil_append, List.filterMap_map]
  exact congrFun List.filterMap_eq_map _

theorem begun?_of_mem_insideModule {e : Event} (h : e ∈ m.insideModule d) :
    e.begun? = none ∧ e.isEnd = false := by
  rcases List.mem_append.1 h with h | h
  · obtain ⟨name, -, rfl⟩ := List.mem_map.1 h
    exact ⟨rfl, rfl⟩
  · obtain ⟨x, -, rfl⟩ := List.mem_map.1 h
    exact ⟨rfl, rfl⟩

/-- A module asks for the classes behind the parameters of its nearest methods. -/
theorem requestedClasses_insideModule (m : Model) (d : TypeDecl) :
    m.requestedClasses (m.insideModule d) =
      ((m.nearestMethods d).flatMap (·.2.parameters)).filterMap (m.requested? ·.type) := by
  have hmodules : (d.modules.map (Event.includedModule d)).flatMap Event.requests = [] := by
    simp [Event.requests]
  have hmethods : ((m.nearestMethods d).map fun x => Event.providesMethod d x.1 x.2).flatMap
      Event.requests = ((m.nearestMethods d).flatMap (·.2.parameters)).map (·.type) := by
    rw [List.flatMap_map, List.map_flatMap]
    rfl
  rw [requestedClasses, insideModule, List.flatMap_append, hmodules, hmethods, List.nil_append,
    List.filterMap_map]
  rfl

theorem requestedClasses_moduleBlock (m : Model) (d : TypeDecl) :
    m.requestedClasses (m.moduleBlock d) = m.requestedClasses (m.insideModule d) := by
  rw [moduleBlock_eq, requestedClasses, List.flatMap_cons, List.flatMap_append]
  simp [requestedClasses, Event.requests]

/-- The events between the beginning and the end of a type, where one block is about it and all else
is not. -/
theorem inner_eq_of_split {phase : Phase} {before inner after before' inner' after' : List Event}
    (hother : ∀ e ∈ before ++ after, e.subject ≠ (phase, d))
    (hinner : ∀ e ∈ inner, e.begun? = none ∧ e.isEnd = false)
    (h : before ++ phase.begins d :: (inner ++ phase.ends d :: after) =
      before' ++ phase.begins d :: (inner' ++ phase.ends d :: after')) : inner = inner' := by
  have hbegins : phase.begins d ∉ inner ++ phase.ends d :: after := by
    simp only [List.mem_append, List.mem_cons]
    rintro (hmem | heq | hmem)
    · have hbegun := (hinner _ hmem).1
      cases phase <;> cases hbegun
    · cases phase <;> cases heq
    · exact hother _ (List.mem_append_right _ hmem) (by cases phase <;> rfl)
  have hbefore : phase.begins d ∉ before := fun hmem =>
    hother _ (List.mem_append_left _ hmem) (by cases phase <;> rfl)
  have hends : phase.ends d ∉ inner := by
    intro hmem
    have hend := (hinner _ hmem).2
    cases phase <;> cases hend
  have hafter : phase.ends d ∉ after := fun hmem =>
    hother _ (List.mem_append_right _ hmem) (by cases phase <;> rfl)
  obtain ⟨-, -, hrest⟩ := (List.append_cons_inj_of_notMem hbefore hbegins).1 h
  exact ((List.append_cons_inj_of_notMem hends hafter).1 hrest).1

/-- The cursor that begins a module puts what the module asks for into its queue. -/
theorem classes_of_advance {c c' : Cursor} {es : List Event} (h : c.advance m = (.ok true, c'))
    (hpending : c'.pending = c.pending ++ .beginModule d :: es) :
    c'.classes =
      c.classes ++ fresh TypeDecl.name c.seen (m.requestedClasses (m.moduleBlock d)) := by
  unfold Cursor.advance at h
  dsimp only at h
  split at h
  · split at h
    · cases h
    · cases h
      rw [Cursor.take_eq] at hpending
      cases List.append_cancel_left hpending
  · split at h
    · split at h
      · cases h
      · cases h
        rw [Cursor.take_eq] at hpending ⊢
        cases List.append_cancel_left hpending
        rfl
    · split at h
      · cases h
        rw [Cursor.take_eq] at hpending
        cases List.append_cancel_left hpending
      · cases h

theorem exists_walkedModules_of_beginModule (h : .beginModule d ∈ (m.walk root).events) :
    ∃ c, m.component? root = .ok c ∧ d ∈ m.walkedModules c := by
  cases hc : m.component? root with
  | ok c => exact ⟨c, rfl, (blocks_of_component hc).beginModule_mem_iff.1 h⟩
  | error e =>
    rw [walk, hc] at h
    cases h

/-- **Of the methods that override each other, a module reports the nearest.** -/
theorem reportsNearest_of_beginModule (h : .beginModule d ∈ (m.walk root).events) :
    m.ReportsNearest root d := by
  obtain ⟨c, hc, hd⟩ := exists_walkedModules_of_beginModule h
  obtain ⟨before, after, hevents, hother⟩ := (blocks_of_component hc).exists_moduleBlock hd
  have hsplit : (m.walk root).events =
      before ++ .beginModule d :: (m.insideModule d ++ .endModule d :: after) := by
    rw [hevents, moduleBlock_eq]
    simp
  exact
    { lineage := superclassChain_lineage m d.name
      exists_between := ⟨before, _, after, hsplit⟩
      between := by
        intro before' inner after' hsplit'
        have hinner : m.insideModule d = inner :=
          inner_eq_of_split hother (fun _ he => begun?_of_mem_insideModule he)
            (hsplit.symm.trans hsplit')
        rw [← hinner]
        exact ⟨filterMap_provided?_insideModule m d, requestedClasses_insideModule m d⟩
      nodup_keys := by
        rw [← providesMethods_eq]
        exact List.pairwise_map.2 (pairwise_firstPerKey _ _)
      represented := fun i hi => exists_isFirst i hi
      queued := by
        intro c c' es hadvance hpending
        rw [classes_of_advance hadvance hpending, requestedClasses_moduleBlock,
          requestedClasses_insideModule] }

/-! A module and its superclass, which names the module as its own superclass. The superclass has a
method that the module overrides under another parameter name, one with other parameter types, and
one that is not public. -/

/-- A provides method for a text, with a single parameter. -/
def providesText (name parameter : String) (type : TypeRef) : Method where
  name
  returns := .string
  parameters := [{ name := parameter, type }]
  provides := true

def overridingModule : TypeDecl where
  name := "app.Mod"
  kind := .module
  superclass := some "app.Base"
  methods := [providesText "value" "near" (.declared "app.Dep" [])]

def overridingModel : Model :=
  Model.empty.insertAll
    [ { name := "app.App", kind := .component, modules := ["app.Mod"] },
      overridingModule,
      { name := "app.Base", superclass := some "app.Mod"
        methods :=
          [ providesText "value" "far" (.declared "app.Dep" []),
            providesText "value" "number" (.primitive .int),
            { providesText "secret" "other" (.declared "app.Other" []) with
              visibility := .private } ] },
      { name := "app.Dep" }, { name := "app.Other" } ]

theorem reportsNearest_example :
    .beginModule overridingModule ∈ (overridingModel.walk "app.App").events ∧
      overridingModel.ReportsNearest "app.App" overridingModule ∧
      (overridingModel.nearestMethods overridingModule).map (fun x => (x.1.name, x.2.signature)) =
        [("app.Mod", "value(app.Dep near)"), ("app.Base", "value(int number)")] := by
  have hbegin : (overridingModel.walk "app.App").events[3]? =
      some (.beginModule overridingModule) := by
    cbv
  have hmem := List.mem_of_getElem? hbegin
  refine ⟨hmem, reportsNearest_of_beginModule hmem, ?_⟩
  rw [← providesMethods_eq]
  cbv

end Model

end Wiring
