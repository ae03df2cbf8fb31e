import Wiring.Proofs.Model.Basic
import Wiring.Proofs.Order.BreadthFirst
import Wiring.Proofs.Walk.Blocks

/-!
# Needed classes

The classes of a walk are the declared types behind what the component and its modules ask for, and
behind what the injected members of these classes ask for in turn.
-/

namespace Wiring.Model

open BreadthFirst (Path Searchable)
open Walk (Event)

variable {m : Model} {c d : TypeDecl} {es : List Event} {e : Event} {n : Nat}

/-- The least set of declared types that holds what is behind the results of the provision methods
of `c` and the parameters of the provides methods that the events `es` report, and with a type what
is behind its injected members: the parameters of its own constructors, and the method parameters and
fields of its lineage. -/
inductive Needed (m : Model) (c : TypeDecl) (es : List Event) : TypeDecl → Prop
  | provisionMethod {method : Method} {d : TypeDecl} (hmethod : method ∈ c.provisionMethods)
    (hd : m.requested? method.returns = some d) : Needed m c es d
  | providesMethod {owner declaring : TypeDecl} {method : Method} {p : Parameter} {d : TypeDecl}
    (hmethod : Event.providesMethod owner declaring method ∈ es) (hp : p ∈ method.parameters)
    (hd : m.requested? p.type = some d) : Needed m c es d
  | constructorParameter {owner : TypeDecl} {constructor : Method} {p : Parameter} {d : TypeDecl}
    (howner : Needed m c es owner) (hconstructor : constructor ∈ owner.injectConstructors)
    (hp : p ∈ constructor.parameters) (hd : m.requested? p.type = some d) : Needed m c es d
  | methodParameter {owner declaring : TypeDecl} {method : Method} {p : Parameter} {d : TypeDecl}
    (howner : Needed m c es owner) (hdeclaring : declaring ∈ m.lineage owner.name)
    (hmethod : method ∈ declaring.injectMethods) (hp : p ∈ method.parameters)
    (hd : m.requested? p.type = some d) : Needed m c es d
  | field {owner declaring : TypeDecl} {f : Field} {d : TypeDecl}
    (howner : Needed m c es owner) (hdeclaring : declaring ∈ m.lineage owner.name)
    (hf : f ∈ declaring.injectFields) (hd : m.requested? f.type = some d) : Needed m c es d

/-! ## Requested classes -/

/-- A requested class is declared under its name. -/
theorem get?_of_requested? {t : TypeRef} (h : m.requested? t = some d) :
    m.get? d.name = some d := by
  obtain ⟨name, _, hd⟩ := Option.bind_eq_some_iff.1 h
  exact get?_name_of_get? hd

theorem mem_requestedClasses_iff :
    d ∈ m.requestedClasses es ↔ ∃ e ∈ es, ∃ t ∈ e.requests, m.requested? t = some d := by
  simp only [requestedClasses, List.mem_filterMap, List.mem_flatMap]
  constructor
  · intro h
    obtain ⟨t, ⟨e, he, ht⟩, hd⟩ := h
    exact ⟨e, he, t, ht, hd⟩
  · intro h
    obtain ⟨e, he, t, ht, hd⟩ := h
    exact ⟨t, ⟨e, he, ht⟩, hd⟩

theorem requestedClasses_append (es es' : List Event) :
    m.requestedClasses (es ++ es') = m.requestedClasses es ++ m.requestedClasses es' := by
  simp [requestedClasses]

theorem mem_requestedClasses_flatMap_iff {block : TypeDecl → List Event} {ds : List TypeDecl} :
    d ∈ m.requestedClasses (ds.flatMap block) ↔ ∃ x ∈ ds, d ∈ m.requestedClasses (block x) := by
  simp only [mem_requestedClasses_iff, List.mem_flatMap]
  constructor
  · intro h
    obtain ⟨e, ⟨x, hx, he⟩, hd⟩ := h
    exact ⟨x, hx, e, he, hd⟩
  · intro h
    obtain ⟨x, hx, e, he, hd⟩ := h
    exact ⟨e, ⟨x, hx, he⟩, hd⟩

/-- What a component asks for: the types behind the results of its provision methods. -/
theorem mem_requestedClasses_componentBlock_iff :
    d ∈ m.requestedClasses (componentBlock c) ↔
      ∃ method ∈ c.provisionMethods, m.requested? method.returns = some d := by
  rw [mem_requestedClasses_iff]
  constructor
  · intro h
    obtain ⟨e, he, t, ht, hd⟩ := h
    simp only [componentBlock, List.cons_append, List.mem_cons, List.mem_append, List.mem_map,
      List.not_mem_nil, or_false] at he
    rcases he with rfl | (⟨name, _, rfl⟩ | ⟨method, hmethod, rfl⟩) | rfl
    · cases ht
    · cases ht
    · rw [List.mem_singleton.1 ht] at hd
      exact ⟨method, hmethod, hd⟩
    · cases ht
  · intro h
    obtain ⟨method, hmethod, hd⟩ := h
    refine ⟨.provisionMethod c method, ?_, method.returns, List.mem_singleton_self _, hd⟩
    simp [componentBlock, hmethod]

/-- What a module asks for: the types behind the parameters of the provides methods it reports. -/
theorem mem_requestedClasses_moduleBlock_iff {owner : TypeDecl} :
    d ∈ m.requestedClasses (m.moduleBlock owner) ↔
      ∃ declaring method, Event.providesMethod owner declaring method ∈ m.moduleBlock owner ∧
        ∃ p ∈ method.parameters, m.requested? p.type = some d := by
  rw [mem_requestedClasses_iff]
  constructor
  · intro h
    obtain ⟨e, he, t, ht, hd⟩ := h
    have hmem := he
    simp only [moduleBlock, List.cons_append, List.mem_cons, List.mem_append, List.mem_map,
      List.not_mem_nil, or_false] at he
    rcases he with rfl | (⟨name, _, rfl⟩ | ⟨⟨declaring, method⟩, _, rfl⟩) | rfl
    · cases ht
    · cases ht
    · obtain ⟨p, hp, rfl⟩ := List.mem_map.1 ht
      exact ⟨declaring, method, hmem, p, hp, hd⟩
    · cases ht
  · intro h
    obtain ⟨declaring, method, he, p, hp, hd⟩ := h
    exact ⟨_, he, p.type, List.mem_map_of_mem hp, hd⟩

/-- What a class asks for: the types behind its injected members. -/
theorem mem_requestedClasses_classBlock_iff {owner : TypeDecl} :
    d ∈ m.requestedClasses (m.classBlock owner) ↔
      (∃ constructor ∈ owner.injectConstructors, ∃ p ∈ constructor.parameters,
        m.requested? p.type = some d) ∨
      ∃ declaring ∈ m.lineage owner.name,
        (∃ method ∈ declaring.injectMethods, ∃ p ∈ method.parameters,
          m.requested? p.type = some d) ∨
        ∃ f ∈ declaring.injectFields, m.requested? f.type = some d := by
  rw [mem_requestedClasses_iff]
  constructor
  · intro h
    obtain ⟨e, he, t, ht, hd⟩ := h
    simp only [classBlock, List.cons_append, List.mem_cons, List.mem_append, List.mem_map,
      List.mem_flatMap, List.not_mem_nil, or_false] at he
    rcases he with rfl | (⟨constructor, hc, p, hp, rfl⟩ | ⟨declaring, hdeclaring, he⟩) | rfl
    · cases ht
    · rw [List.mem_singleton.1 ht] at hd
      exact .inl ⟨constructor, hc, p, hp, hd⟩
    · rcases he with ⟨method, hmethod, p, hp, rfl⟩ | ⟨f, hf, rfl⟩
      · rw [List.mem_singleton.1 ht] at hd
        exact .inr ⟨declaring, hdeclaring, .inl ⟨method, hmethod, p, hp, hd⟩⟩
      · rw [List.mem_singleton.1 ht] at hd
        exact .inr ⟨declaring, hdeclaring, .inr ⟨f, hf, hd⟩⟩
    · cases ht
  · simp only [classBlock, List.cons_append, List.mem_cons, List.mem_append, List.mem_map,
      List.mem_flatMap]
    intro h
    rcases h with ⟨constructor, hc, p, hp, hd⟩ | ⟨declaring, hdeclaring, hmember⟩
    · exact ⟨_, .inr (.inl (.inl ⟨constructor, hc, p, hp, rfl⟩)), p.type,
        List.mem_singleton_self _, hd⟩
    · rcases hmember with ⟨method, hmethod, p, hp, hd⟩ | ⟨f, hf, hd⟩
      · exact ⟨_, .inr (.inl (.inr ⟨declaring, hdeclaring, .inl ⟨method, hmethod, p, hp, rfl⟩⟩)),
          p.type, List.mem_singleton_self _, hd⟩
      · exact ⟨_, .inr (.inl (.inr ⟨declaring, hdeclaring, .inr ⟨f, hf, rfl⟩⟩)), f.type,
          List.mem_singleton_self _, hd⟩

/-! ## The classes of a walk -/

/-- The classes that a class asks for. -/
def successors (m : Model) (d : TypeDecl) : List TypeDecl := m.requestedClasses (m.classBlock d)

variable {first : List TypeDecl} (hfirst : ∀ d ∈ first, m.get? d.name = some d)

include hfirst

theorem get?_of_path (h : Path m.successors first n d) : m.get? d.name = some d := by
  cases h with
  | start h => exact hfirst d h
  | step _ hb =>
    obtain ⟨e, _, t, _, hd⟩ := mem_requestedClasses_iff.1 hb
    exact get?_of_requested? hd

theorem eq_of_path {a b : TypeDecl} {n n' : Nat} (ha : Path m.successors first n a)
    (hb : Path m.successors first n' b) (h : a.name = b.name) : a = b := by
  have hget := get?_of_path hfirst ha
  rw [h, get?_of_path hfirst hb] at hget
  cases hget
  rfl

theorem searchable_classes : Searchable TypeDecl.name m.successors m.names first where
  next_eq := fun ha hb h => by rw [eq_of_path hfirst ha hb h]
  next_eq_nil := fun h hname =>
    absurd (name_mem_names_of_get? (get?_of_path hfirst h)) hname

theorem mem_classOrder_iff : d ∈ m.classOrder first ↔ ∃ n, Path m.successors first n d := by
  have hs := searchable_classes hfirst
  constructor
  · exact BreadthFirst.exists_path_of_mem_visit hs
  · rintro ⟨n, h⟩
    obtain ⟨d', hd', hname⟩ := List.mem_map.1 <|
      (BreadthFirst.mem_keys_visit_iff hs).2 ⟨n, d, h, rfl⟩
    obtain ⟨n', h'⟩ := BreadthFirst.exists_path_of_mem_visit hs hd'
    rw [← eq_of_path hfirst h' h hname]
    exact hd'

omit hfirst

variable {modules : List TypeDecl}

theorem get?_of_mem_requestedClasses (h : d ∈ m.requestedClasses es) : m.get? d.name = some d := by
  obtain ⟨e, _, t, _, hd⟩ := mem_requestedClasses_iff.1 h
  exact get?_of_requested? hd

theorem needed_of_path
    (hes : ∀ owner declaring method, Event.providesMethod owner declaring method ∈
      modules.flatMap m.moduleBlock → Event.providesMethod owner declaring method ∈ es)
    (h : Path m.successors
      (m.requestedClasses (componentBlock c ++ modules.flatMap m.moduleBlock)) n d) :
    m.Needed c es d := by
  induction h with
  | start h =>
    rw [requestedClasses_append, List.mem_append] at h
    rcases h with h | h
    · obtain ⟨method, hmethod, hd⟩ := mem_requestedClasses_componentBlock_iff.1 h
      exact .provisionMethod hmethod hd
    · obtain ⟨owner, howner, h⟩ := mem_requestedClasses_flatMap_iff.1 h
      obtain ⟨declaring, method, he, p, hp, hd⟩ := mem_requestedClasses_moduleBlock_iff.1 h
      exact .providesMethod (hes _ _ _ (List.mem_flatMap.2 ⟨owner, howner, he⟩)) hp hd
  | step _ hb ih =>
    rcases mem_requestedClasses_classBlock_iff.1 hb with
      ⟨constructor, hconstructor, p, hp, hd⟩ | ⟨declaring, hdeclaring, hmember⟩
    · exact .constructorParameter ih hconstructor hp hd
    · rcases hmember with ⟨method, hmethod, p, hp, hd⟩ | ⟨f, hf, hd⟩
      · exact .methodParameter ih hdeclaring hmethod hp hd
      · exact .field ih hdeclaring hf hd

theorem exists_path_of_needed
    (hes : ∀ owner declaring method, Event.providesMethod owner declaring method ∈ es →
      Event.providesMethod owner declaring method ∈ modules.flatMap m.moduleBlock)
    (h : m.Needed c es d) :
    ∃ n, Path m.successors
      (m.requestedClasses (componentBlock c ++ modules.flatMap m.moduleBlock)) n d := by
  induction h with
  | provisionMethod hmethod hd =>
    refine ⟨0, .start ?_⟩
    rw [requestedClasses_append, List.mem_append]
    exact .inl (mem_requestedClasses_componentBlock_iff.2 ⟨_, hmethod, hd⟩)
  | providesMethod hmethod hp hd =>
    refine ⟨0, .start ?_⟩
    rw [requestedClasses_append, List.mem_append]
    exact .inr (mem_requestedClasses_iff.2
      ⟨_, hes _ _ _ hmethod, _, List.mem_map_of_mem hp, hd⟩)
  | constructorParameter _ hconstructor hp hd ih =>
    obtain ⟨n, ih⟩ := ih
    exact ⟨n + 1, .step ih (mem_requestedClasses_classBlock_iff.2
      (.inl ⟨_, hconstructor, _, hp, hd⟩))⟩
  | methodParameter _ hdeclaring hmethod hp hd ih =>
    obtain ⟨n, ih⟩ := ih
    exact ⟨n + 1, .step ih (mem_requestedClasses_classBlock_iff.2
      (.inr ⟨_, hdeclaring, .inl ⟨_, hmethod, _, hp, hd⟩⟩))⟩
  | field _ hdeclaring hf hd ih =>
    obtain ⟨n, ih⟩ := ih
    exact ⟨n + 1, .step ih (mem_requestedClasses_classBlock_iff.2
      (.inr ⟨_, hdeclaring, .inr ⟨_, hf, hd⟩⟩))⟩

/-- **A walk comes to exactly the classes that are needed.** -/
theorem mem_classOrder_iff_needed
    (hes : ∀ owner declaring method, Event.providesMethod owner declaring method ∈ es ↔
      Event.providesMethod owner declaring method ∈ modules.flatMap m.moduleBlock) :
    d ∈ m.classOrder (m.requestedClasses (componentBlock c ++ modules.flatMap m.moduleBlock)) ↔
      m.Needed c es d := by
  rw [mem_classOrder_iff fun d hd => get?_of_mem_requestedClasses hd]
  constructor
  · rintro ⟨n, h⟩
    exact needed_of_path (fun _ _ _ => (hes _ _ _).2) h
  · exact exists_path_of_needed fun _ _ _ => (hes _ _ _).1

end Wiring.Model
