import Mathlib.Data.List.Forall2
import Wiring.Order.BreadthFirst
import Wiring.Order.FirstPerKey
import Wiring.Order.UntilFailure

/-!
# Related lists

Two lists that are related element by element stay so under all that a walk does with a list: to
look a key up, to keep the first element of each key, to search from the elements, to go on until
something fails. Keys decide each of these, so related elements must have one key.
-/

namespace Wiring

open List (Forall₂)

variable {α β γ δ κ ε : Type} {R : α → β → Prop} {S : γ → δ → Prop} {key : α → κ} {key' : β → κ}
  {as : List α} {bs : List β}

theorem map_eq_of_forall₂ (hkey : ∀ a b, R a b → key a = key' b) (h : Forall₂ R as bs) :
    as.map key = bs.map key' := by
  have heq : Forall₂ (· = ·) (as.map key) (bs.map key') := List.rel_map (fun a b => hkey a b) h
  rwa [List.forall₂_eq_eq_eq] at heq

theorem forall₂_filter {p : α → Bool} {q : β → Bool} (hpq : ∀ a b, R a b → p a = q b)
    (h : Forall₂ R as bs) : Forall₂ R (as.filter p) (bs.filter q) :=
  List.rel_filter (fun a b hab => iff_of_eq (congrArg (· = true) (hpq a b hab))) h

/-- A key is found in both lists or in neither. -/
theorem rel_find? [BEq κ] (hkey : ∀ a b, R a b → key a = key' b) (h : Forall₂ R as bs) (k : κ) :
    Option.Rel R (as.find? (key · == k)) (bs.find? (key' · == k)) := by
  induction h with
  | nil => exact .none
  | @cons a b as bs hab _ ih =>
    rw [List.find?_cons, List.find?_cons, ← hkey a b hab]
    split
    · exact .some hab
    · exact ih

section Keys

variable [DecidableEq κ]

theorem forall₂_firstPerKey (hkey : ∀ a b, R a b → key a = key' b) (h : Forall₂ R as bs) :
    Forall₂ R (firstPerKey key as) (firstPerKey key' bs) := by
  induction h with
  | nil => exact .nil
  | @cons a b as bs hab _ ih =>
    refine .cons hab (forall₂_filter (fun c d hcd => ?_) ih)
    rw [hkey a b hab, hkey c d hcd]

/-- **Searches through related items meet related items.** -/
theorem forall₂_visit {next : α → List α} {next' : β → List β}
    (hkey : ∀ a b, R a b → key a = key' b) (hnext : ∀ a b, R a b → Forall₂ R (next a) (next' b))
    (scope seen : List κ) (h : Forall₂ R as bs) :
    Forall₂ R (BreadthFirst.visit key next scope seen as)
      (BreadthFirst.visit key' next' scope seen bs) := by
  induction seen, as using BreadthFirst.visit.induct key next scope generalizing bs with
  | case1 seen =>
    cases h
    rw [BreadthFirst.visit, BreadthFirst.visit]
    exact .nil
  | case2 seen a rest hs ih =>
    cases h with
    | @cons _ b _ bs hab hrest =>
      have hs' : key' b ∈ seen := hkey a b hab ▸ hs
      rw [BreadthFirst.visit, dif_pos hs, BreadthFirst.visit, dif_pos hs']
      exact ih hrest
  | case3 seen a rest hs hk _ ih =>
    cases h with
    | @cons _ b _ bs hab hrest =>
      have hs' : key' b ∉ seen := hkey a b hab ▸ hs
      have hk' : key' b ∈ scope := hkey a b hab ▸ hk
      rw [BreadthFirst.visit, dif_neg hs, dif_pos hk, BreadthFirst.visit, dif_neg hs', dif_pos hk']
      refine .cons hab ?_
      rw [← hkey a b hab]
      exact ih (List.rel_append hrest (hnext a b hab))
  | case4 seen a rest hs hk ih =>
    cases h with
    | @cons _ b _ bs hab hrest =>
      have hs' : key' b ∉ seen := hkey a b hab ▸ hs
      have hk' : key' b ∉ scope := hkey a b hab ▸ hk
      rw [BreadthFirst.visit, dif_neg hs, dif_neg hk, BreadthFirst.visit, dif_neg hs', dif_neg hk']
      refine .cons hab ?_
      rw [← hkey a b hab]
      exact ih hrest

end Keys

/-! ## Runs that may fail -/

/-- Both fail or both succeed, with related results. -/
inductive RelResult (S : γ → δ → Prop) : Except ε γ → Except ε δ → Prop
  | ok {c : γ} {d : δ} (h : S c d) : RelResult S (.ok c) (.ok d)
  | error (e : ε) : RelResult S (.error e) (.error e)

/-- Related functions go equally far along one list. -/
theorem forall₂_untilFailure {f : α → Except ε γ} {f' : α → Except ε δ}
    (h : ∀ a, RelResult S (f a) (f' a)) (as : List α) :
    Forall₂ S (untilFailure f as).1 (untilFailure f' as).1 ∧
      (untilFailure f as).2 = (untilFailure f' as).2 := by
  induction as with
  | nil => exact ⟨.nil, rfl⟩
  | cons a as ih =>
    rw [untilFailure, untilFailure]
    have ha := h a
    generalize f a = x, f' a = y at ha
    cases ha with
    | ok hcd => exact ⟨.cons hcd ih.1, ih.2⟩
    | error e => exact ⟨.nil, rfl⟩

end Wiring
