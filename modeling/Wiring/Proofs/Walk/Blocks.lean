import Mathlib.Data.List.Nodup
import Wiring.Walk.Basic

/-!
# Blocks of events

A walk reports each type that it comes to as a block: an event that begins the type, events about
its members, and an event that ends it. The events between the two are about no other type.
-/

namespace Wiring.Walk

/-- The parts of a walk. -/
inductive Phase
  | component
  | «module»
  | «class»
deriving DecidableEq, Repr

namespace Phase

/-- The event that begins a type. -/
def begins : Phase → TypeDecl → Event
  | .component => .beginComponent
  | .module => .beginModule
  | .class => .beginClass

/-- The event that ends a type. -/
def ends : Phase → TypeDecl → Event
  | .component => .endComponent
  | .module => .endModule
  | .class => .endClass

end Phase

namespace Event

/-- The type that an event reports something about, and in which part of the walk. -/
def subject : Event → Phase × TypeDecl
  | beginComponent c | componentModule c _ | provisionMethod c _ | endComponent c => (.component, c)
  | beginModule d | includedModule d _ | providesMethod d _ _ | endModule d => (.module, d)
  | beginClass d | constructorParameter d _ _ | methodParameter d _ _ | field d _ | endClass d =>
    (.class, d)

/-- What an event begins. -/
def begun? : Event → Option (Phase × TypeDecl)
  | beginComponent c => some (.component, c)
  | beginModule d => some (.module, d)
  | beginClass d => some (.class, d)
  | _ => none

/-- Whether an event ends a type. -/
def isEnd : Event → Bool
  | endComponent _ | endModule _ | endClass _ => true
  | _ => false

end Event

/-- The events about a type, from its beginning to its end. -/
def IsBlock (phase : Phase) (owner : TypeDecl) (es : List Event) : Prop :=
  ∃ inner, es = phase.begins owner :: inner ++ [phase.ends owner] ∧
    ∀ e ∈ inner, e.subject = (phase, owner) ∧ e.begun? = none ∧ e.isEnd = false

/-- Every event of a block is about its type. -/
theorem IsBlock.subject_eq {phase : Phase} {owner : TypeDecl} {es : List Event} {e : Event}
    (h : IsBlock phase owner es) (he : e ∈ es) : e.subject = (phase, owner) := by
  obtain ⟨inner, rfl, hinner⟩ := h
  simp only [List.cons_append, List.mem_cons, List.mem_append, List.not_mem_nil, or_false] at he
  rcases he with rfl | he | rfl
  · cases phase <;> rfl
  · exact (hinner e he).1
  · cases phase <;> rfl

/-- A block begins its type and no other. -/
theorem IsBlock.filterMap_begun? {phase : Phase} {owner : TypeDecl} {es : List Event}
    (h : IsBlock phase owner es) : es.filterMap Event.begun? = [(phase, owner)] := by
  obtain ⟨inner, rfl, hinner⟩ := h
  have hnil : inner.filterMap Event.begun? = [] :=
    List.filterMap_eq_nil_iff.2 fun e he => (hinner e he).2.1
  rw [List.cons_append, List.filterMap_cons, List.filterMap_append, hnil]
  cases phase <;> rfl

theorem filterMap_begun?_flatMap {phase : Phase} {block : TypeDecl → List Event}
    (hblock : ∀ d, IsBlock phase d (block d)) (ds : List TypeDecl) :
    (ds.flatMap block).filterMap Event.begun? = ds.map (phase, ·) := by
  induction ds with
  | nil => rfl
  | cons d ds ih =>
    rw [List.flatMap_cons, List.filterMap_append, (hblock d).filterMap_begun?, ih]
    rfl

/-- Among the blocks of distinct types, one has all the events about its type. -/
theorem exists_flatMap_eq {phase : Phase} {block : TypeDecl → List Event}
    (hblock : ∀ d, IsBlock phase d (block d)) {d : TypeDecl} {ds : List TypeDecl} (hnodup : ds.Nodup)
    (hd : d ∈ ds) :
    ∃ before after, ds.flatMap block = before ++ block d ++ after ∧
      ∀ e ∈ before ++ after, e.subject ≠ (phase, d) := by
  obtain ⟨before, after, rfl⟩ := List.append_of_mem hd
  have hother : d ∉ before ++ after := (List.nodup_cons.1 (List.nodup_middle.1 hnodup)).1
  refine ⟨before.flatMap block, after.flatMap block, ?_, ?_⟩
  · rw [List.flatMap_append, List.flatMap_cons, List.append_assoc]
  · rw [← List.flatMap_append]
    intro e he hsubject
    obtain ⟨x, hx, he⟩ := List.mem_flatMap.1 he
    obtain rfl : x = d := congrArg Prod.snd (((hblock x).subject_eq he).symm.trans hsubject)
    exact hother hx

end Wiring.Walk

namespace Wiring.Model

open Walk (IsBlock)

variable {m : Model} {d : TypeDecl}

theorem isBlock_componentBlock : IsBlock .component d (componentBlock d) := by
  refine ⟨_, rfl, fun e he => ?_⟩
  rcases List.mem_append.1 he with he | he
  · obtain ⟨name, _, rfl⟩ := List.mem_map.1 he
    exact ⟨rfl, rfl, rfl⟩
  · obtain ⟨method, _, rfl⟩ := List.mem_map.1 he
    exact ⟨rfl, rfl, rfl⟩

theorem isBlock_moduleBlock : IsBlock .module d (m.moduleBlock d) := by
  refine ⟨_, rfl, fun e he => ?_⟩
  rcases List.mem_append.1 he with he | he
  · obtain ⟨name, _, rfl⟩ := List.mem_map.1 he
    exact ⟨rfl, rfl, rfl⟩
  · obtain ⟨⟨declaring, method⟩, _, rfl⟩ := List.mem_map.1 he
    exact ⟨rfl, rfl, rfl⟩

theorem isBlock_classBlock : IsBlock .class d (m.classBlock d) := by
  refine ⟨_, rfl, fun e he => ?_⟩
  rcases List.mem_append.1 he with he | he
  · obtain ⟨constructor, _, he⟩ := List.mem_flatMap.1 he
    obtain ⟨parameter, _, rfl⟩ := List.mem_map.1 he
    exact ⟨rfl, rfl, rfl⟩
  · obtain ⟨declaring, _, he⟩ := List.mem_flatMap.1 he
    rcases List.mem_append.1 he with he | he
    · obtain ⟨method, _, he⟩ := List.mem_flatMap.1 he
      obtain ⟨parameter, _, rfl⟩ := List.mem_map.1 he
      exact ⟨rfl, rfl, rfl⟩
    · obtain ⟨field, _, rfl⟩ := List.mem_map.1 he
      exact ⟨rfl, rfl, rfl⟩

end Wiring.Model
