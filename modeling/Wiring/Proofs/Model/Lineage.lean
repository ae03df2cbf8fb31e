import Mathlib.Data.List.Perm.Subperm
import Mathlib.Logic.Function.Iterate
import Mathlib.Logic.Relation
import Wiring.Proofs.Walk.Overriding

/-!
# Lineages

The lineage of a type is found by climbing from superclass to superclass. Nothing bounds the climb,
and superclasses may be declared in circles; it ends because it stops at a name that it has met. So
a lineage holds all that can be reached from its type, and it is the type followed by the lineage of
the superclass exactly if the type is not its own ancestor.
-/

namespace Wiring.Model

open Relation (ReflTransGen TransGen)

variable {m : Model} {name : String} {d e : TypeDecl} {d? : Option TypeDecl} {ds : List TypeDecl}
  {seen : List String}

/-- One type is the declared superclass of the other. -/
def HasParent (m : Model) (d parent : TypeDecl) : Prop := m.parent? d = some parent

theorem HasParent.get?_name (h : m.HasParent d e) : m.get? e.name = some e := by
  obtain ⟨_, _, he⟩ := Option.bind_eq_some_iff.1 h
  exact get?_name_of_get? he

/-- Whatever can be reached from a declared type is declared. -/
theorem get?_name_of_reflTransGen (hd : m.get? d.name = some d) (h : ReflTransGen m.HasParent d e) :
    m.get? e.name = some e := by
  cases h with
  | refl => exact hd
  | tail _ hlast => exact hlast.get?_name

/-! ## Climbs -/

/-- A climb on its way. -/
structure Climb where
  /-- The types that were met, nearest first. -/
  met : List TypeDecl
  /-- The type to be looked at, if there is one. -/
  next : Option TypeDecl

namespace Climb

def start (m : Model) (name : String) : Climb := ⟨[], m.get? name⟩

/-- Takes the next type and goes on to its superclass. The climb is over where there is no type, or
one whose name was met. -/
def step (m : Model) : Climb → Climb
  | ⟨met, none⟩ => ⟨met, none⟩
  | ⟨met, some d⟩ =>
    if d.name ∈ met.map (·.name) then ⟨met, none⟩ else ⟨met ++ [d], m.parent? d⟩

/-- **A climb follows the chain of superclasses** and is over after one more step. -/
theorem iterate_step (h : m.SuperclassChain seen d? ds) (met : List TypeDecl)
    (hseen : ∀ k, k ∈ seen ↔ k ∈ met.map (·.name)) :
    (step m)^[ds.length + 1] ⟨met, d?⟩ = ⟨met ++ ds, none⟩ := by
  induction h generalizing met with
  | undeclared => simp [step]
  | met hd => simp [step, ← hseen, hd]
  | @step seen d ds hd _ ih =>
    have hnew : d.name ∉ met.map (·.name) := mt (hseen _).2 hd
    have hseen' : ∀ k, k ∈ d.name :: seen ↔ k ∈ (met ++ [d]).map (·.name) := by
      intro k
      simp [hseen, or_comm]
    rw [List.length_cons, Function.iterate_succ_apply, step, if_neg hnew, parent?,
      ih _ hseen', List.append_assoc, List.singleton_append]

end Climb

/-! ## Chains of superclasses -/

theorem SuperclassChain.mem_head? (h : m.SuperclassChain seen d? ds) (he : e ∈ ds.head?) :
    d? = some e := by
  cases h with
  | undeclared => cases he
  | met _ => cases he
  | step _ _ => exact he

theorem SuperclassChain.head?_eq (h : m.SuperclassChain [] d? ds) : ds.head? = d? := by
  cases h with
  | undeclared => rfl
  | met hmet => cases hmet
  | step _ _ => rfl

theorem SuperclassChain.isChain (h : m.SuperclassChain seen d? ds) : ds.IsChain m.HasParent := by
  induction h with
  | undeclared => exact .nil
  | met _ => exact .nil
  | step _ hrest ih => exact List.isChain_cons.2 ⟨fun _ he => hrest.mem_head? he, ih⟩

/-- A chain goes on to the superclass of each of its types, unless that name was met. -/
theorem SuperclassChain.closed (h : m.SuperclassChain seen d? ds) (hd : d ∈ ds)
    (hparent : m.HasParent d e) : e.name ∈ seen ∨ e.name ∈ ds.map (·.name) := by
  induction h with
  | undeclared => cases hd
  | met _ => cases hd
  | @step seen first ds _ hrest ih =>
    have hafter : e.name ∈ first.name :: seen ∨ e.name ∈ ds.map (·.name) := by
      rcases List.mem_cons.1 hd with rfl | hd
      · unfold HasParent parent? at hparent
        rw [hparent] at hrest
        cases hrest with
        | met hmet => exact .inl hmet
        | step _ _ => exact .inr List.mem_cons_self
      · exact ih hd
    rw [List.map_cons, List.mem_cons]
    rcases hafter with hbefore | hafter
    · rw [List.mem_cons] at hbefore
      tauto
    · exact .inr (.inr hafter)

/-- Two chains from a type are the same if the names met before make no difference to any type that
can be reached. -/
theorem SuperclassChain.unique {seen' : List String} {ds' : List TypeDecl}
    (h : m.SuperclassChain seen d? ds) (h' : m.SuperclassChain seen' d? ds')
    (hseen : ∀ d, d? = some d → ∀ e, ReflTransGen m.HasParent d e →
      (e.name ∈ seen ↔ e.name ∈ seen')) : ds = ds' := by
  induction h generalizing seen' ds' with
  | undeclared =>
    cases h' with
    | undeclared => rfl
  | @met seen d hmet =>
    cases h' with
    | met _ => rfl
    | step hnew _ => exact absurd ((hseen d rfl d .refl).1 hmet) hnew
  | @step seen d ds hnew hrest ih =>
    cases h' with
    | met hmet => exact absurd ((hseen d rfl d .refl).2 hmet) hnew
    | step _ hrest' =>
      rw [ih hrest' fun parent hparent e he => ?_]
      rw [List.mem_cons, List.mem_cons, hseen d rfl e (.head hparent he)]

/-! ## The lineage of a type -/

theorem head?_lineage (m : Model) (name : String) : (m.lineage name).head? = m.get? name :=
  (superclassChain_lineage m name).head?_eq

theorem nodup_names_lineage (m : Model) (name : String) :
    ((m.lineage name).map (·.name)).Nodup :=
  BreadthFirst.nodup_keys_visit.1

/-- The lineage of a type goes on to the superclass of each of its types. -/
theorem mem_lineage_of_hasParent (hd : d ∈ m.lineage name) (hparent : m.HasParent d e) :
    e ∈ m.lineage name := by
  rcases (superclassChain_lineage m name).closed hd hparent with hmet | hname
  · cases hmet
  · obtain ⟨e', he', hname⟩ := List.mem_map.1 hname
    have hdeclared := get?_of_mem_lineage he'
    rw [hname, hparent.get?_name, Option.some_inj] at hdeclared
    exact hdeclared ▸ he'

theorem mem_lineage_of_reflTransGen (hd : m.get? name = some d)
    (h : ReflTransGen m.HasParent d e) : e ∈ m.lineage name := by
  induction h with
  | refl => exact List.mem_of_mem_head? (head?_lineage m name ▸ hd)
  | tail _ hlast ih => exact mem_lineage_of_hasParent ih hlast

theorem length_lineage_le (m : Model) (name : String) : (m.lineage name).length ≤ m.size := by
  have hsubset : (m.lineage name).map (·.name) ⊆ m.names := by
    intro k hk
    obtain ⟨d, hd, rfl⟩ := List.mem_map.1 hk
    exact name_mem_names_of_get? (get?_of_mem_lineage hd)
  have hle := (List.subperm_of_subset (nodup_names_lineage m name) hsubset).length_le
  simpa [names, size] using hle

/-- The lineage of the superclass, if there is one. -/
def parentLineage (m : Model) (d : TypeDecl) : List TypeDecl :=
  match d.superclass with
  | some superclass => m.lineage superclass
  | none => []

theorem superclassChain_parentLineage (m : Model) (d : TypeDecl) :
    m.SuperclassChain [] (m.parent? d) (m.parentLineage d) := by
  unfold parentLineage parent?
  cases d.superclass with
  | none => exact .undeclared
  | some superclass => exact superclassChain_lineage m superclass

/-- **A lineage is the type and the lineage of its superclass** exactly if the type is not its own
ancestor. -/
theorem lineage_eq_cons_iff (hd : m.get? name = some d) :
    m.lineage name = d :: m.parentLineage d ↔ ¬TransGen m.HasParent d d := by
  have hchain := superclassChain_lineage m name
  constructor
  · intro heq hcycle
    obtain ⟨parent, hparent, hback⟩ := TransGen.head'_iff.1 hcycle
    -- the type is reached again from its superclass, so it is in that lineage as well
    have hagain : d ∈ m.parentLineage d := by
      obtain ⟨superclass, hsuperclass, hget⟩ := Option.bind_eq_some_iff.1 hparent
      rw [parentLineage, hsuperclass]
      exact mem_lineage_of_reflTransGen hget hback
    have hnodup := nodup_names_lineage m name
    rw [heq, List.map_cons, List.nodup_cons] at hnodup
    exact hnodup.1 (List.mem_map_of_mem hagain)
  · intro hcycle
    rw [hd] at hchain
    generalize m.lineage name = ds at hchain
    cases hchain with
    | met hmet => cases hmet
    | step _ hrest =>
      rw [hrest.unique (superclassChain_parentLineage m d) fun parent hparent e he => ?_]
      have hne : e.name ≠ d.name := by
        intro hname
        have he' := get?_name_of_reflTransGen (HasParent.get?_name hparent) he
        rw [hname, name_of_get? hd, hd, Option.some_inj] at he'
        exact hcycle (.head' hparent (he' ▸ he))
      simp [hne]

/-- What the types `ds` must be to be the lineage of a name. -/
structure IsLineage (m : Model) (name : String) (ds : List TypeDecl) : Prop where
  /-- The climb ends, and the lineage is what it has met then. -/
  ends : ∃ n ≤ m.size + 1, (Climb.step m)^[n] (.start m name) = ⟨ds, none⟩
  eq_nil_iff : ds = [] ↔ m.get? name = none
  head?_eq : ds.head? = m.get? name
  isChain : ds.IsChain fun d parent => m.parent? d = some parent
  nodup_names : (ds.map (·.name)).Nodup
  /-- Nothing can be added behind the last type. -/
  maximal : ∀ d ∈ ds.getLast?, d.superclass = none ∨
    ∃ superclass, d.superclass = some superclass ∧
      (m.get? superclass = none ∨ superclass ∈ ds.map (·.name))
  /-- The lineage of the superclass follows exactly if the type is not its own ancestor; so it does
  wherever the chain of superclasses has no cycle. -/
  eq_cons_iff : ∀ d, m.get? name = some d →
    (ds = d :: m.parentLineage d ↔ ¬TransGen (fun d parent => m.parent? d = some parent) d d)

/-- **The lineage of a name** is the longest chain of declared superclasses without repetition. -/
theorem isLineage_lineage (m : Model) (name : String) : m.IsLineage name (m.lineage name) where
  ends := by
    refine ⟨_, Nat.succ_le_succ (length_lineage_le m name), ?_⟩
    exact Climb.iterate_step (superclassChain_lineage m name) [] (by simp)
  eq_nil_iff := by rw [← head?_lineage, List.head?_eq_none_iff]
  head?_eq := head?_lineage m name
  isChain := (superclassChain_lineage m name).isChain
  nodup_names := nodup_names_lineage m name
  maximal := by
    intro d hd
    cases hsuperclass : d.superclass with
    | none => exact .inl rfl
    | some superclass =>
      refine .inr ⟨superclass, rfl, ?_⟩
      cases hparent : m.get? superclass with
      | none => exact .inl rfl
      | some parent =>
        have hhas : m.HasParent d parent := by rw [HasParent, parent?, hsuperclass]; exact hparent
        have hmem := mem_lineage_of_hasParent (List.mem_of_mem_getLast? hd) hhas
        exact .inr (List.mem_map.2 ⟨parent, hmem, name_of_get? hparent⟩)
  eq_cons_iff := fun _ hd => lineage_eq_cons_iff hd

end Wiring.Model
