import Mathlib.Data.List.Chain
import Wiring.Proofs.Graph.Basic

/-!
# Paths and cycles

A path is told by the types on it, each of which needs the next. A type needs what its paths end at,
and it needs itself exactly if it lies on a cycle of distinct types.
-/

namespace Wiring.Graph

open Relation (ReflTransGen TransGen)

variable {g : Graph} {a b : String} {c p : List String}

/-- The types that a path of one or more edges from `a` comes to. -/
structure IsPath (g : Graph) (a : String) (p : List String) : Prop where
  ne_nil : p ≠ []
  isChain : (a :: p).IsChain g.Edge

/-- Distinct types each of which needs the next, and the last one the first. -/
structure IsCycle (g : Graph) (c : List String) : Prop where
  nodup : c.Nodup
  isChain : c.IsChain g.Edge
  closes : ∃ first last, c.head? = some first ∧ c.getLast? = some last ∧ g.Edge last first

theorem isPath_singleton (h : g.Edge a b) : g.IsPath a [b] :=
  ⟨List.cons_ne_nil _ _, List.isChain_pair.2 h⟩

theorem IsPath.cons (h : g.Edge a b) (hp : g.IsPath b p) : g.IsPath a (b :: p) :=
  ⟨List.cons_ne_nil _ _, List.isChain_cons_cons.2 ⟨h, hp.isChain⟩⟩

/-- **A type needs what its paths end at.** -/
theorem needs_iff_exists_isPath : g.Needs a b ↔ ∃ p, g.IsPath a p ∧ p.getLast? = some b := by
  constructor
  · intro h
    induction h using TransGen.head_induction_on with
    | single h => exact ⟨[b], isPath_singleton h, rfl⟩
    | @head a c h _ ih =>
      obtain ⟨p, hp, hlast⟩ := ih
      exact ⟨c :: p, hp.cons h, by simp [List.getLast?_cons, hlast]⟩
  · rintro ⟨p, hp, hlast⟩
    induction p generalizing a with
    | nil => exact absurd rfl hp.ne_nil
    | cons x q ih =>
      obtain ⟨hedge, hrest⟩ := List.isChain_cons_cons.1 hp.isChain
      cases q with
      | nil =>
        cases hlast
        exact .single hedge
      | cons y q => exact .head hedge (ih ⟨List.cons_ne_nil _ _, hrest⟩ hlast)

/-- What can be reached can be reached without coming to a type twice. -/
theorem exists_nodup_isChain (h : ReflTransGen g.Edge a b) :
    ∃ p, (a :: p).IsChain g.Edge ∧ (a :: p).Nodup ∧ (a :: p).getLast? = some b := by
  induction h using ReflTransGen.head_induction_on with
  | refl => exact ⟨[], List.isChain_singleton b, List.nodup_singleton b, rfl⟩
  | @head a c h _ ih =>
    obtain ⟨p, hchain, hnodup, hlast⟩ := ih
    by_cases ha : a ∈ c :: p
    · -- the path comes back to its start, from where it goes on without a detour
      obtain ⟨before, after, hsplit⟩ := List.append_of_mem ha
      rw [hsplit] at hchain hnodup hlast
      refine ⟨after, hchain.right_of_append, (List.nodup_append.1 hnodup).2.1, ?_⟩
      simpa using hlast
    · refine ⟨c :: p, List.isChain_cons_cons.2 ⟨h, hchain⟩, List.nodup_cons.2 ⟨ha, hnodup⟩, ?_⟩
      rw [List.getLast?_cons, hlast]
      rfl

/-- On a chain every type reaches the last one, and the first one reaches every type. -/
theorem reaches_of_isChain {first last : String} (hchain : c.IsChain g.Edge) (ha : a ∈ c)
    (hfirst : c.head? = some first) (hlast : c.getLast? = some last) :
    ReflTransGen g.Edge first a ∧ ReflTransGen g.Edge a last := by
  induction c generalizing first a with
  | nil => cases ha
  | cons x q ih =>
    cases hfirst
    cases q with
    | nil =>
      cases List.mem_singleton.1 ha
      cases hlast
      exact ⟨.refl, .refl⟩
    | cons y q =>
      obtain ⟨hedge, hrest⟩ := List.isChain_cons_cons.1 hchain
      rcases List.mem_cons.1 ha with rfl | ha
      · exact ⟨.refl, .head hedge (ih hrest List.mem_cons_self rfl hlast).2⟩
      · obtain ⟨hto, hfrom⟩ := ih hrest ha rfl hlast
        exact ⟨.head hedge hto, hfrom⟩

/-- **A type needs itself exactly if it lies on a cycle.** -/
theorem needs_self_iff : g.Needs a a ↔ ∃ c, g.IsCycle c ∧ a ∈ c := by
  constructor
  · intro h
    obtain ⟨b, hreach, hedge⟩ := TransGen.tail'_iff.1 h
    obtain ⟨p, hchain, hnodup, hlast⟩ := exists_nodup_isChain hreach
    exact ⟨a :: p, ⟨hnodup, hchain, a, b, rfl, hlast, hedge⟩, List.mem_cons_self⟩
  · rintro ⟨c, hc, ha⟩
    obtain ⟨first, last, hfirst, hlast, hedge⟩ := hc.closes
    obtain ⟨hto, hfrom⟩ := reaches_of_isChain hc.isChain ha hfirst hlast
    exact (TransGen.tail' hfrom hedge).trans_left hto

end Wiring.Graph
