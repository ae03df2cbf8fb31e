import Wiring.Proofs.Order.Related
import Wiring.Proofs.Walk.Traversal

/-!
# Members of other types

Two models may differ in nothing but the types of some members. A walk goes by what a type provides:
where each type provides what the other one does, the walks of both models come to the same types in
the same order.
-/

namespace Wiring

open List (Forall₂)

/-- Whether two types provide the same, so that a walk does not tell them apart. -/
def TypeRef.ProvidesSame (t t' : TypeRef) : Prop := t.provided = t'.provided

variable (R : TypeRef → TypeRef → Prop)

/-- The same field at a related type. -/
def Field.Retyped (f f' : Field) : Prop :=
  ∃ t, R f.type t ∧ f' = { f with type := t }

/-- The same parameter at a related type. -/
def Parameter.Retyped (p p' : Parameter) : Prop :=
  ∃ t, R p.type t ∧ p' = { p with type := t }

/-- The same constructor with parameters of related types. -/
def Method.ParametersRetyped (c c' : Method) : Prop :=
  ∃ ps, Forall₂ (Parameter.Retyped R) c.parameters ps ∧ c' = { c with parameters := ps }

/-- The same method with a result of a related type; none if there was none. -/
def Method.ResultRetyped (x x' : Method) : Prop :=
  ∃ t, R x.returns t ∧ t.isVoid = x.returns.isVoid ∧ x' = { x with returns := t }

/-- The same type, but for the types of constructor parameters, of results and of fields. -/
def TypeDecl.Retyped (d d' : TypeDecl) : Prop :=
  ∃ constructors methods fields,
    Forall₂ (Method.ParametersRetyped R) d.constructors constructors ∧
      Forall₂ (Method.ResultRetyped R) d.methods methods ∧
      Forall₂ (Field.Retyped R) d.fields fields ∧ d' = { d with constructors, methods, fields }

/-- The same declared types, but for the types of constructor parameters, of results and of
fields. -/
def Model.Retyped (m m' : Model) : Prop := Forall₂ (TypeDecl.Retyped R) m.types m'.types

variable {R}

/-! ## Declared types -/

namespace TypeDecl.Retyped

variable {d d' : TypeDecl} (h : d.Retyped R d')

include h

theorem name_eq : d.name = d'.name := by
  obtain ⟨constructors, methods, fields, _, _, _, rfl⟩ := h
  rfl

theorem kind_eq : d.kind = d'.kind := by
  obtain ⟨constructors, methods, fields, _, _, _, rfl⟩ := h
  rfl

theorem superclass_eq : d.superclass = d'.superclass := by
  obtain ⟨constructors, methods, fields, _, _, _, rfl⟩ := h
  rfl

theorem moduleRefs_eq : d.moduleRefs = d'.moduleRefs := by
  obtain ⟨constructors, methods, fields, _, _, _, rfl⟩ := h
  rfl

theorem provisionMethods :
    Forall₂ (Method.ResultRetyped R) d.provisionMethods d'.provisionMethods := by
  obtain ⟨constructors, methods, fields, _, hmethods, _, rfl⟩ := h
  refine forall₂_filter ?_ hmethods
  rintro x _ ⟨t, _, hvoid, rfl⟩
  rw [hvoid]

theorem providesMethods :
    Forall₂ (Method.ResultRetyped R) d.providesMethods d'.providesMethods := by
  obtain ⟨constructors, methods, fields, _, hmethods, _, rfl⟩ := h
  refine forall₂_filter ?_ hmethods
  rintro x _ ⟨t, _, hvoid, rfl⟩
  rw [hvoid]
  rfl

theorem injectMethods : Forall₂ (Method.ResultRetyped R) d.injectMethods d'.injectMethods := by
  obtain ⟨constructors, methods, fields, _, hmethods, _, rfl⟩ := h
  refine forall₂_filter ?_ hmethods
  rintro x _ ⟨t, _, _, rfl⟩
  rfl

theorem injectConstructors :
    Forall₂ (Method.ParametersRetyped R) d.injectConstructors d'.injectConstructors := by
  obtain ⟨constructors, methods, fields, hconstructors, _, _, rfl⟩ := h
  refine forall₂_filter ?_ hconstructors
  rintro c _ ⟨ps, _, rfl⟩
  rfl

theorem injectFields : Forall₂ (Field.Retyped R) d.injectFields d'.injectFields := by
  obtain ⟨constructors, methods, fields, _, _, hfields, rfl⟩ := h
  refine forall₂_filter ?_ hfields
  rintro f _ ⟨t, _, rfl⟩
  rfl

end TypeDecl.Retyped

namespace Model.Retyped

variable {m m' : Model} (h : m.Retyped R m')

include h

theorem names_eq : m.names = m'.names :=
  map_eq_of_forall₂ (fun _ _ hd => hd.name_eq) h

theorem rel_get? (name : String) :
    Option.Rel (TypeDecl.Retyped R) (m.get? name) (m'.get? name) :=
  rel_find? (fun _ _ hd => hd.name_eq) h name

theorem closest?_eq (name : String) : m.closest? name = m'.closest? name := by
  rw [closest?, closest?, h.names_eq]

theorem rel_component? (root : String) :
    RelResult (TypeDecl.Retyped R) (m.component? root) (m'.component? root) := by
  have hroot := h.rel_get? root
  unfold component?
  rw [h.closest?_eq]
  generalize m.get? root = x, m'.get? root = y at hroot
  cases hroot with
  | none => exact .error _
  | @some d d' hd =>
    dsimp only
    rw [hd.kind_eq]
    split
    · exact .ok hd
    · exact .error _

theorem rel_module? (r : ModuleRef) :
    RelResult (TypeDecl.Retyped R) (m.module? r) (m'.module? r) := by
  have hr := h.rel_get? r.name
  unfold module?
  rw [h.closest?_eq]
  generalize m.get? r.name = x, m'.get? r.name = y at hr
  cases hr with
  | none => exact .error _
  | @some d d' hd =>
    dsimp only
    rw [hd.kind_eq]
    split
    · exact .ok hd
    · exact .error _

theorem moduleOrder_eq {c c' : TypeDecl} (hc : c.Retyped R c') :
    m.moduleOrder c = m'.moduleOrder c' := by
  have hrefs : m.includedRefs = m'.includedRefs := by
    funext r
    have hr := h.rel_module? r
    unfold includedRefs
    generalize m.module? r = x, m'.module? r = y at hr
    cases hr with
    | ok hd => exact hd.moduleRefs_eq
    | error e => rfl
  rw [moduleOrder, moduleOrder, hrefs, h.names_eq, hc.moduleRefs_eq]

theorem forall₂_lineage (name : String) :
    Forall₂ (TypeDecl.Retyped R) (m.lineage name) (m'.lineage name) := by
  have hlist : ∀ x y, Option.Rel (TypeDecl.Retyped R) x y →
      Forall₂ (TypeDecl.Retyped R) x.toList y.toList := by
    intro x y hxy
    cases hxy with
    | none => exact .nil
    | some hd => exact .cons hd .nil
  rw [lineage, lineage, ← h.names_eq]
  refine forall₂_visit (fun _ _ hd => hd.name_eq) (fun d d' hd => hlist _ _ ?_) _ _
    (hlist _ _ (h.rel_get? name))
  unfold parent?
  rw [hd.superclass_eq]
  cases d'.superclass with
  | none => exact .none
  | some parent => exact h.rel_get? parent

theorem forall₂_providesMethods {d d' : TypeDecl} (hd : d.Retyped R d') :
    Forall₂ (fun x x' => x.1.Retyped R x'.1 ∧ x.2.ResultRetyped R x'.2) (m.providesMethods d)
      (m'.providesMethods d') := by
  rw [providesMethods, providesMethods, ← hd.name_eq]
  refine forall₂_firstPerKey ?_ (List.rel_flatMap (h.forall₂_lineage d.name) ?_)
  · rintro ⟨_, x⟩ ⟨_, _⟩ ⟨_, t, _, _, rfl⟩
    rfl
  · intro declaring declaring' hdeclaring
    exact List.rel_map (fun x x' hx => ⟨hdeclaring, hx⟩) hdeclaring.providesMethods

end Model.Retyped

/-! ## Requests -/

namespace Model

open TypeRef (ProvidesSame)
open Walk (Event)

variable {m m' : Model} {c c' d d' : TypeDecl}

theorem requests_componentBlock (c : TypeDecl) :
    (componentBlock c).flatMap Event.requests = c.provisionMethods.map (·.returns) := by
  simp [componentBlock, Event.requests, List.flatMap_assoc, List.map_eq_flatMap]

theorem requests_moduleBlock (m : Model) (d : TypeDecl) :
    (m.moduleBlock d).flatMap Event.requests =
      (m.providesMethods d).flatMap fun x => x.2.parameters.map (·.type) := by
  simp [moduleBlock, Event.requests, List.flatMap_map]

theorem requests_classBlock (m : Model) (d : TypeDecl) :
    (m.classBlock d).flatMap Event.requests =
      (d.injectConstructors.flatMap fun c => c.parameters.map (·.type)) ++
        (m.lineage d.name).flatMap fun declaring =>
          (declaring.injectMethods.flatMap fun x => x.parameters.map (·.type)) ++
            declaring.injectFields.map (·.type) := by
  simp [classBlock, Event.requests, List.flatMap_assoc, List.map_eq_flatMap]

theorem forall₂_provided_parameters {x x' : Method} (hR : ∀ t t', R t t' → ProvidesSame t t')
    (hx : x.ParametersRetyped R x') :
    Forall₂ ProvidesSame (x.parameters.map (·.type)) (x'.parameters.map (·.type)) := by
  obtain ⟨ps, hps, rfl⟩ := hx
  refine List.rel_map ?_ hps
  rintro p _ ⟨t, ht, rfl⟩
  exact hR _ _ ht

/-- Another result leaves the parameters of a method as they are. -/
theorem forall₂_provided_of_resultRetyped {x x' : Method} (hx : x.ResultRetyped R x') :
    Forall₂ ProvidesSame (x.parameters.map (·.type)) (x'.parameters.map (·.type)) := by
  obtain ⟨t, _, _, rfl⟩ := hx
  exact List.forall₂_same.2 fun _ _ => rfl

theorem forall₂_provided_componentBlock (hR : ∀ t t', R t t' → ProvidesSame t t')
    (hc : c.Retyped R c') :
    Forall₂ ProvidesSame ((componentBlock c).flatMap Event.requests)
      ((componentBlock c').flatMap Event.requests) := by
  rw [requests_componentBlock, requests_componentBlock]
  refine List.rel_map ?_ hc.provisionMethods
  rintro x _ ⟨t, ht, _, rfl⟩
  exact hR _ _ ht

namespace Retyped

variable (h : m.Retyped R m')

include h

theorem forall₂_provided_moduleBlock (hd : d.Retyped R d') :
    Forall₂ ProvidesSame ((m.moduleBlock d).flatMap Event.requests)
      ((m'.moduleBlock d').flatMap Event.requests) := by
  rw [requests_moduleBlock, requests_moduleBlock]
  exact List.rel_flatMap (h.forall₂_providesMethods hd) fun x x' hx =>
    forall₂_provided_of_resultRetyped hx.2

theorem forall₂_provided_classBlock (hR : ∀ t t', R t t' → ProvidesSame t t')
    (hd : d.Retyped R d') :
    Forall₂ ProvidesSame ((m.classBlock d).flatMap Event.requests)
      ((m'.classBlock d').flatMap Event.requests) := by
  rw [requests_classBlock, requests_classBlock, ← hd.name_eq]
  refine List.rel_append (List.rel_flatMap hd.injectConstructors fun x x' hx =>
    forall₂_provided_parameters hR hx) ?_
  refine List.rel_flatMap (h.forall₂_lineage d.name) fun declaring declaring' hdeclaring => ?_
  refine List.rel_append (List.rel_flatMap hdeclaring.injectMethods fun x x' hx =>
    forall₂_provided_of_resultRetyped hx) ?_
  refine List.rel_map ?_ hdeclaring.injectFields
  rintro f _ ⟨t, ht, rfl⟩
  exact hR _ _ ht

theorem rel_requested? {t t' : TypeRef} (ht : ProvidesSame t t') :
    Option.Rel (TypeDecl.Retyped R) (m.requested? t) (m'.requested? t') := by
  rw [requested?, requested?, ← ht, resolve?, resolve?]
  cases t.provided.erasure? with
  | none => exact .none
  | some name => exact h.rel_get? name

/-- Events that ask for the same ask for the same classes. -/
theorem forall₂_requestedClasses {es es' : List Event}
    (hes : Forall₂ ProvidesSame (es.flatMap Event.requests) (es'.flatMap Event.requests)) :
    Forall₂ (TypeDecl.Retyped R) (m.requestedClasses es) (m'.requestedClasses es') :=
  List.rel_filterMap (fun _ _ ht => h.rel_requested? ht) hes

/-- The classes that a component and its modules ask for. -/
theorem forall₂_requestedClasses_blocks (hR : ∀ t t', R t t' → ProvidesSame t t')
    (hc : c.Retyped R c') {modules modules' : List TypeDecl}
    (hmodules : Forall₂ (TypeDecl.Retyped R) modules modules') :
    Forall₂ (TypeDecl.Retyped R)
      (m.requestedClasses (componentBlock c ++ modules.flatMap m.moduleBlock))
      (m'.requestedClasses (componentBlock c' ++ modules'.flatMap m'.moduleBlock)) := by
  refine h.forall₂_requestedClasses ?_
  rw [List.flatMap_append, List.flatMap_append, List.flatMap_assoc, List.flatMap_assoc]
  exact List.rel_append (forall₂_provided_componentBlock hR hc) <|
    List.rel_flatMap hmodules fun d d' hd => h.forall₂_provided_moduleBlock hd

theorem forall₂_classOrder (hR : ∀ t t', R t t' → ProvidesSame t t') {first first' : List TypeDecl}
    (hfirst : Forall₂ (TypeDecl.Retyped R) first first') :
    Forall₂ (TypeDecl.Retyped R) (m.classOrder first) (m'.classOrder first') := by
  rw [classOrder, classOrder, ← h.names_eq]
  exact forall₂_visit (fun _ _ hd => hd.name_eq)
    (fun d d' hd => h.forall₂_requestedClasses (h.forall₂_provided_classBlock hR hd)) _ _ hfirst

end Retyped

end Model

/-! ## Walks -/

/-- The types that a walk comes to, each with the part of the walk. -/
def Walk.begun (w : Walk) : List (Walk.Phase × String) :=
  (w.events.filterMap Walk.Event.begun?).map fun b => (b.1, b.2.name)

namespace Model

open TypeRef (ProvidesSame)

variable {m m' : Model}

theorem begun_blocks (m : Model) (c : TypeDecl) (modules classes : List TypeDecl)
    (failure : Option Error) :
    Walk.begun ⟨componentBlock c ++ modules.flatMap m.moduleBlock ++ classes.flatMap m.classBlock,
        failure⟩ =
      (.component, c.name) ::
        (modules.map (fun d => (.module, d.name)) ++ classes.map fun d => (.class, d.name)) := by
  rw [Walk.begun, List.filterMap_append, List.filterMap_append,
    isBlock_componentBlock.filterMap_begun?,
    Walk.filterMap_begun?_flatMap fun _ => isBlock_moduleBlock,
    Walk.filterMap_begun?_flatMap fun _ => isBlock_classBlock]
  simp [Function.comp_def]

/-- **Where types provide the same, walks come to the same types.** -/
theorem Retyped.begun_walk_eq (h : m.Retyped R m') (hR : ∀ t t', R t t' → ProvidesSame t t')
    (root : String) : (m.walk root).begun = (m'.walk root).begun := by
  have hroot := h.rel_component? root
  unfold walk
  generalize m.component? root = x, m'.component? root = y at hroot
  cases hroot with
  | error e => rfl
  | @ok c c' hc =>
    have hnames : ∀ phase : Walk.Phase, ∀ {ds ds'}, Forall₂ (TypeDecl.Retyped R) ds ds' →
        ds.map (fun d => (phase, d.name)) = ds'.map fun d => (phase, d.name) := fun phase _ _ hds =>
      map_eq_of_forall₂ (fun _ _ hd => congrArg (phase, ·) hd.name_eq) hds
    obtain ⟨hmodules, hfailure⟩ := forall₂_untilFailure h.rel_module? (m.moduleOrder c)
    rw [h.moduleOrder_eq hc] at hmodules hfailure
    dsimp only
    rw [h.moduleOrder_eq hc, hfailure]
    cases (untilFailure m'.module? (m'.moduleOrder c')).2 with
    | some e =>
      -- the walk ends before the first class
      have hbegun := fun m c modules => begun_blocks m c modules [] (some e)
      simp only [List.flatMap_nil, List.append_nil, List.map_nil] at hbegun
      rw [hbegun, hbegun, hc.name_eq, hnames .module hmodules]
    | none =>
      have hclasses :=
        h.forall₂_classOrder hR (h.forall₂_requestedClasses_blocks hR hc hmodules)
      dsimp only
      rw [begun_blocks, begun_blocks, hc.name_eq, hnames .module hmodules, hnames .class hclasses]

end Model

end Wiring
