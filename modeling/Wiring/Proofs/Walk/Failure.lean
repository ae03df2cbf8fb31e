import Wiring.Proofs.Order.Layers
import Wiring.Proofs.Walk.Traversal

/-!
# Walks that fail

A walk fails if its root is no component, or if the module references below the component lead to a
name that no module is declared under. The error is about the first such reference in breadth-first
order, and it comes after the blocks of the component and of modules only. Read event by event, the
walk yields it once, and nothing more.
-/

namespace Wiring

open Walk (Event Phase IsBlock)

/-! ## Reading -/

namespace Cursor

variable {m : Model} {c : Cursor} {es : List Event} {failure : Option Error}

/-- What so many reads leave for the next one to yield. -/
def read (m : Model) (c : Cursor) : Nat → Option (Except Error Event)
  | 0 => (c.next m).1
  | n + 1 => read m (c.next m).2 n

theorem read_of_next_eq_none (h : c.next m = (none, c)) (n : Nat) : c.read m n = none := by
  induction n with
  | zero => rw [read, h]
  | succ n ih => rwa [read, h]

/-- The reads yield the events one after another, then the failure if there is one, then nothing. -/
theorem Yields.read_eq (h : Yields m c es failure) (n : Nat) :
    c.read m n = (es.map Except.ok ++ (failure.map Except.error).toList)[n]? := by
  induction h generalizing n with
  | done h hend =>
    cases n with
    | zero => rw [read, h]; rfl
    | succ n => rw [read, h]; exact read_of_next_eq_none hend n
  | failed h hend =>
    cases n with
    | zero => rw [read, h]; rfl
    | succ n => rw [read, h]; exact read_of_next_eq_none hend n
  | event h _ ih =>
    cases n with
    | zero => rw [read, h]; rfl
    | succ n => rw [read, h]; exact ih n

end Cursor

namespace Model

variable {m : Model} {c d : TypeDecl} {r : ModuleRef} {root name : String} {e : Error} {n : Nat}

/-! ## References that lead to no module -/

/-- Whether a module is declared under a name. -/
def declaresModule (m : Model) (name : String) : Bool :=
  (m.get? name).any (·.kind = .module)

/-- References lead from the component `c` to a name: each one to a module, but perhaps the last. -/
inductive Leads (m : Model) (c : TypeDecl) : String → Prop
  | direct {name : String} (h : name ∈ c.modules) : Leads m c name
  | step {name included : String} {d : TypeDecl} (h : Leads m c name)
    (hd : m.get? name = some d) (hkind : d.kind = .module) (hi : included ∈ d.modules) :
    Leads m c included

/-- The references that so many others lead to from the component `c`: first its own in order, then
those of the modules that these lead to, and so on. -/
def refLayer (m : Model) (c : TypeDecl) (n : Nat) : List ModuleRef :=
  BreadthFirst.layer m.includedRefs c.moduleRefs n

/-- The first reference below the component `c`, breadth first, that leads to no module. -/
structure IsFirstDangling (m : Model) (c : TypeDecl) (r : ModuleRef) : Prop where
  dangles : m.declaresModule r.name = false
  /-- The component holds the reference, or a module does that the component leads to. -/
  held : r ∈ c.moduleRefs ∨
    ∃ d, m.Leads c d.name ∧ m.get? d.name = some d ∧ d.kind = .module ∧ r ∈ d.moduleRefs
  first : ∃ n before after, m.refLayer c n = before ++ r :: after ∧
    (∀ r' ∈ before, m.declaresModule r'.name) ∧
    ∀ k < n, ∀ r' ∈ m.refLayer c k, m.declaresModule r'.name

/-- What a walk from `root` can fail with. -/
inductive Refusal (m : Model) (root : String) : Error → Prop
  | undeclaredRoot (h : m.get? root = none) :
    Refusal m root (.unknownType root "walk root" (m.closest? root))
  | notAComponent {d : TypeDecl} (hd : m.get? root = some d) (hkind : d.kind ≠ .component) :
    Refusal m root (.notAComponent root)
  | undeclaredModule {c : TypeDecl} {r : ModuleRef} (hc : m.get? root = some c)
    (hkind : c.kind = .component) (hr : m.IsFirstDangling c r) (h : m.get? r.name = none) :
    Refusal m root (.unknownType r.name r.referencedBy (m.closest? r.name))
  | notAModule {c d : TypeDecl} {r : ModuleRef} (hc : m.get? root = some c)
    (hkind : c.kind = .component) (hr : m.IsFirstDangling c r) (hd : m.get? r.name = some d) :
    Refusal m root (.notAModule r.name r.referencedBy)

/-- The root is not declared or no component, or its references lead to a name that is not declared
or no module's. -/
inductive Unwalkable (m : Model) (root : String) : Prop
  | undeclaredRoot (h : m.get? root = none)
  | notAComponent {d : TypeDecl} (hd : m.get? root = some d) (hkind : d.kind ≠ .component)
  | undeclaredModule {c : TypeDecl} {name : String} (hc : m.get? root = some c)
    (hkind : c.kind = .component) (hname : m.Leads c name) (h : m.get? name = none)
  | notAModule {c d : TypeDecl} {name : String} (hc : m.get? root = some c)
    (hkind : c.kind = .component) (hname : m.Leads c name) (hd : m.get? name = some d)
    (hd_kind : d.kind ≠ .module)

/-- How a walk from `root` fails: after these events, with this error. -/
structure Failed (m : Model) (root : String) (events : List Event) (e : Error) : Prop where
  refusal : m.Refusal root e
  /-- The reads yield the events, then the error, and from then on nothing. -/
  read_eq : ∀ n, (Cursor.start root).read m n = (events.map Except.ok ++ [.error e])[n]?
  /-- No block is cut off. -/
  blocks : ∃ blocks : List (List Event), events = blocks.flatten ∧
    ∀ block ∈ blocks, ∃ phase d, IsBlock phase d block
  subject_ne : ∀ event ∈ events, event.subject.1 ≠ .class

theorem declaresModule_iff : m.declaresModule r.name ↔ ∃ d, m.module? r = .ok d := by
  simp [declaresModule, Option.any_eq_true, module?_eq_ok_iff]

theorem module?_eq_error (h : m.module? r = .error e) :
    (m.get? r.name = none ∧ e = .unknownType r.name r.referencedBy (m.closest? r.name)) ∨
      ∃ d, m.get? r.name = some d ∧ d.kind ≠ .module ∧ e = .notAModule r.name r.referencedBy := by
  unfold module? at h
  split at h
  · next hnone =>
    cases h
    exact .inl ⟨hnone, rfl⟩
  · next d hd =>
    split at h
    · cases h
    · next hkind =>
      cases h
      exact .inr ⟨d, hd, hkind, rfl⟩

theorem component?_eq_error (h : m.component? root = .error e) :
    (m.get? root = none ∧ e = .unknownType root "walk root" (m.closest? root)) ∨
      ∃ d, m.get? root = some d ∧ d.kind ≠ .component ∧ e = .notAComponent root := by
  unfold component? at h
  split at h
  · next hnone =>
    cases h
    exact .inl ⟨hnone, rfl⟩
  · next d hd =>
    split at h
    · cases h
    · next hkind =>
      cases h
      exact .inr ⟨d, hd, hkind, rfl⟩

/-- References lead to the names in the layers, and to no others. -/
theorem leads_iff : m.Leads c name ↔ ∃ n, ∃ r ∈ m.refLayer c n, r.name = name := by
  simp only [refLayer, BreadthFirst.mem_layer_iff]
  constructor
  · intro h
    induction h with
    | direct h => exact ⟨0, ⟨_, c.name⟩, .start (mem_moduleRefs_iff.2 ⟨h, rfl⟩), rfl⟩
    | @step name included d _ hd hkind hi ih =>
      obtain ⟨n, r, hr, rfl⟩ := ih
      have hincluded : ⟨included, d.name⟩ ∈ m.includedRefs r :=
        mem_includedRefs_iff.2
          ⟨d, module?_eq_ok_iff.2 ⟨hd, hkind⟩, mem_moduleRefs_iff.2 ⟨hi, rfl⟩⟩
      exact ⟨n + 1, _, .step hr hincluded, rfl⟩
  · rintro ⟨n, r, hr, rfl⟩
    induction hr with
    | start h => exact .direct (mem_moduleRefs_iff.1 h).1
    | step _ hb ih =>
      obtain ⟨d, hd, hb⟩ := mem_includedRefs_iff.1 hb
      obtain ⟨hd, hkind⟩ := module?_eq_ok_iff.1 hd
      exact .step ih hd hkind (mem_moduleRefs_iff.1 hb).1

/-- A walk comes to every name that references lead to. -/
theorem exists_mem_moduleOrder_iff :
    (∃ r ∈ m.moduleOrder c, r.name = name) ↔ m.Leads c name := by
  rw [leads_iff, ← List.mem_map, moduleOrder,
    BreadthFirst.mem_keys_visit_iff (searchable_modules m c)]
  simp only [refLayer, BreadthFirst.mem_layer_iff, BreadthFirst.At]

/-- A reference is held by the component, or by a module that the component leads to. -/
theorem held_of_mem_refLayer (h : r ∈ m.refLayer c n) :
    r ∈ c.moduleRefs ∨
      ∃ d, m.Leads c d.name ∧ m.get? d.name = some d ∧ d.kind = .module ∧ r ∈ d.moduleRefs := by
  cases n with
  | zero => exact .inl h
  | succ n =>
    obtain ⟨r', hr', hr⟩ := List.mem_flatMap.1 h
    obtain ⟨d, hd, hr⟩ := mem_includedRefs_iff.1 hr
    obtain ⟨hd, hkind⟩ := module?_eq_ok_iff.1 hd
    have hname : d.name = r'.name := name_of_get? hd
    exact .inr ⟨d, leads_iff.2 ⟨n, r', hr', hname.symm⟩, get?_name_of_get? hd, hkind, hr⟩

/-- **The reference that a walk fails at is the first one, breadth first, that leads to no module**,
though the walk drops the references to modules that it came to before. -/
theorem isFirstDangling_of_find?
    (h : (m.moduleOrder c).find? (fun r => !m.declaresModule r.name) = some r) :
    m.IsFirstDangling c r := by
  have hlike : ∀ r r' : ModuleRef, r.name = r'.name →
      (!m.declaresModule r.name) = !m.declaresModule r'.name := by
    intro r r' hname
    rw [hname]
  obtain ⟨n, hn, hbefore⟩ :=
    BreadthFirst.exists_layer_of_find?_visit (searchable_modules m c) hlike h
  obtain ⟨hr, before, after, hlayer, hfirst⟩ := List.find?_eq_some_iff_append.1 hn
  refine ⟨by simpa using hr, held_of_mem_refLayer (n := n) ?_, n, before, after, hlayer, ?_, ?_⟩
  · exact List.mem_of_find?_eq_some hn
  · simpa using hfirst
  · intro k hk r' hr'
    have := List.find?_eq_none.1 (hbefore k hk) r' hr'
    simpa using this

/-! ## Failure -/

/-- A walk fails with a refusal. -/
theorem refusal_of_failure (h : (m.walk root).failure = some e) : m.Refusal root e := by
  unfold walk at h
  split at h
  · next e' he =>
    cases h
    rcases component?_eq_error he with ⟨hnone, rfl⟩ | ⟨d, hd, hkind, rfl⟩
    · exact .undeclaredRoot hnone
    · exact .notAComponent hd hkind
  · next c hc =>
    obtain ⟨hroot, hkind⟩ := component?_eq_ok_iff.1 hc
    have hfailure : (untilFailure m.module? (m.moduleOrder c)).2 = some e := by
      revert h
      dsimp only
      cases (untilFailure m.module? (m.moduleOrder c)).2 <;> simp
    have hdangles : ∀ r : ModuleRef,
        (!m.declaresModule r.name) = false ↔ ∃ d, m.module? r = .ok d := by
      intro r
      rw [Bool.not_eq_false', declaresModule_iff]
    obtain ⟨r, hr, he⟩ := exists_find?_of_untilFailure_eq_some hdangles hfailure
    have hfirst := isFirstDangling_of_find? hr
    rcases module?_eq_error he with ⟨hnone, rfl⟩ | ⟨d, hd, _, rfl⟩
    · exact .undeclaredModule hroot hkind hfirst hnone
    · exact .notAModule hroot hkind hfirst hd

/-- A walk does not fail if its root is a component whose references all lead to modules. -/
theorem failure_eq_none_iff_leads :
    (m.walk root).failure = none ↔ ∃ c, m.get? root = some c ∧ c.kind = .component ∧
      ∀ name, m.Leads c name → ∃ d, m.get? name = some d ∧ d.kind = .module := by
  have hmodules : ∀ c, (∀ r ∈ m.moduleOrder c, ∃ d, m.module? r = .ok d) ↔
      ∀ name, m.Leads c name → ∃ d, m.get? name = some d ∧ d.kind = .module := by
    intro c
    simp only [← exists_mem_moduleOrder_iff, module?_eq_ok_iff]
    exact ⟨fun h name ⟨r, hr, hname⟩ => hname ▸ h r hr, fun h r hr => h r.name ⟨r, hr, rfl⟩⟩
  simp only [failure_eq_none_iff, component?_eq_ok_iff, hmodules, and_assoc]

/-- **A walk fails exactly if its root is no component or a reference leads to no module.** -/
theorem failure_ne_none_iff : (m.walk root).failure ≠ none ↔ m.Unwalkable root := by
  rw [Ne, failure_eq_none_iff_leads]
  constructor
  · intro h
    cases hroot : m.get? root with
    | none => exact .undeclaredRoot hroot
    | some c =>
      by_cases hkind : c.kind = .component
      · have hfails : ¬∀ name, m.Leads c name → ∃ d, m.get? name = some d ∧ d.kind = .module :=
          fun hall => h ⟨c, hroot, hkind, hall⟩
        simp only [not_forall] at hfails
        obtain ⟨name, hname, hfails⟩ := hfails
        cases hd : m.get? name with
        | none => exact .undeclaredModule hroot hkind hname hd
        | some d => exact .notAModule hroot hkind hname hd fun hmodule => hfails ⟨d, hd, hmodule⟩
      · exact .notAComponent hroot hkind
  · rintro h ⟨c, hc, hkind, hmodules⟩
    cases h with
    | undeclaredRoot hnone => simp [hnone] at hc
    | notAComponent hd hd_kind =>
      cases hd.symm.trans hc
      exact hd_kind hkind
    | undeclaredModule hc' _ hname hnone =>
      cases hc'.symm.trans hc
      obtain ⟨d, hd, _⟩ := hmodules _ hname
      simp [hnone] at hd
    | notAModule hc' _ hname hd hd_kind =>
      cases hc'.symm.trans hc
      obtain ⟨d', hd', hmodule⟩ := hmodules _ hname
      cases hd.symm.trans hd'
      exact hd_kind hmodule

/-- What is reported before a failure is the component and modules, each by a whole block. -/
theorem exists_blocks_of_failure (h : (m.walk root).failure = some e) :
    ∃ blocks : List (List Event), (m.walk root).events = blocks.flatten ∧
      ∀ block ∈ blocks, ∃ phase d, IsBlock phase d block ∧ phase ≠ .class := by
  unfold walk at h ⊢
  split at h
  · exact ⟨[], rfl, nofun⟩
  · next c hc =>
    revert h
    dsimp only
    cases (untilFailure m.module? (m.moduleOrder c)).2 with
    | none => intro h; cases h
    | some e =>
      intro _
      refine ⟨componentBlock c ::
        (untilFailure m.module? (m.moduleOrder c)).1.map m.moduleBlock, ?_, ?_⟩
      · rw [List.flatten_cons, List.flatMap_def]
      · rw [List.forall_mem_cons, List.forall_mem_map]
        exact ⟨⟨.component, c, isBlock_componentBlock, nofun⟩,
          fun d _ => ⟨.module, d, isBlock_moduleBlock, nofun⟩⟩

theorem failed_of_failure (h : (m.walk root).failure = some e) :
    m.Failed root (m.walk root).events e := by
  obtain ⟨blocks, hevents, hblocks⟩ := exists_blocks_of_failure h
  refine ⟨refusal_of_failure h, fun n => ?_, ⟨blocks, hevents, fun block hblock => ?_⟩,
    fun event hevent => ?_⟩
  · have := (Cursor.yields_walk m root).read_eq n
    rwa [h] at this
  · obtain ⟨phase, d, hblock, _⟩ := hblocks block hblock
    exact ⟨phase, d, hblock⟩
  · rw [hevents, List.mem_flatten] at hevent
    obtain ⟨block, hblock, hevent⟩ := hevent
    obtain ⟨phase, d, hblock, hphase⟩ := hblocks block hblock
    rw [hblock.subject_eq hevent]
    exact hphase

/-- **A read yields an error exactly if the root is not declared or no component, or the references
below it lead to a name that is not declared or no module's.** The error is then about the first
such reference, it comes after whole blocks, none of them of a class, and nothing comes after it. -/
theorem exists_read_eq_error_iff (m : Model) (root : String) :
    ((∃ n e, (Cursor.start root).read m n = some (.error e)) ↔ m.Unwalkable root) ∧
      (m.Unwalkable root → ∃ events e, m.Failed root events e) := by
  rw [← failure_ne_none_iff]
  have hread := (Cursor.yields_walk m root).read_eq
  constructor
  · constructor
    · rintro ⟨n, e, hn⟩ hnone
      rw [hread n, hnone] at hn
      have hmem := List.mem_of_getElem? hn
      simp at hmem
    · intro h
      obtain ⟨e, he⟩ := Option.ne_none_iff_exists'.1 h
      refine ⟨(m.walk root).events.length, e, ?_⟩
      rw [hread, he]
      simp
  · intro h
    obtain ⟨e, he⟩ := Option.ne_none_iff_exists'.1 h
    exact ⟨_, e, failed_of_failure he⟩

/-! A helper class that two modules include as if it were a module: one of them nearer to the
component, the other behind the first module of its list. -/

def danglingModel : Model :=
  Model.empty.insertAll
    [ { name := "app.Root", kind := .component, modules := ["app.A", "app.B"] },
      { name := "app.A", kind := .module, modules := ["app.C"] },
      { name := "app.B", kind := .module, modules := ["app.Helper"] },
      { name := "app.C", kind := .module, modules := ["app.Helper"] },
      { name := "app.Helper" } ]

theorem failure_danglingModel :
    (danglingModel.walk "app.Root").failure = some (.notAModule "app.Helper" "app.B") := by
  cbv

theorem unwalkable_danglingModel : danglingModel.Unwalkable "app.Root" := by
  rw [← failure_ne_none_iff, failure_danglingModel]
  exact Option.some_ne_none _

theorem failed_danglingModel :
    danglingModel.Unwalkable "app.Root" ∧ (∃ events e, danglingModel.Failed "app.Root" events e) ∧
      (danglingModel.walk "app.Root").failure = some (.notAModule "app.Helper" "app.B") :=
  ⟨unwalkable_danglingModel, (exists_read_eq_error_iff _ _).2 unwalkable_danglingModel,
    failure_danglingModel⟩

end Model

end Wiring
