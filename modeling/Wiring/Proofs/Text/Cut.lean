import Mathlib.Data.List.Basic

/-!
Where lists that are put together with a separator come apart again: at the first place of the
separator, at the last one, or at the first one of some kind.
-/

namespace Wiring

variable {α : Type} {c : α} {as as' bs bs' : List α}

/-- Two lists that are cut where a property of the front is lost are cut alike. -/
theorem eq_of_append_cons_eq {P : List α → Prop} (hlost : ∀ front back, P front → ¬P (front ++ c :: back))
    (h : P as) (h' : P as') (heq : as ++ c :: bs = as' ++ c :: bs') : as = as' ∧ bs = bs' := by
  rcases List.append_eq_append_iff.1 heq with ⟨mid, hfront, hback⟩ | ⟨mid, hfront, hback⟩
  · cases mid with
    | nil =>
      rw [List.append_nil] at hfront
      exact ⟨hfront.symm, (List.cons.inj hback).2⟩
    | cons d mid =>
      obtain ⟨rfl, _⟩ := List.cons.inj hback
      exact absurd (hfront ▸ h') (hlost as mid h)
  · cases mid with
    | nil =>
      rw [List.append_nil] at hfront
      exact ⟨hfront, (List.cons.inj hback).2.symm⟩
    | cons d mid =>
      obtain ⟨rfl, _⟩ := List.cons.inj hback
      exact absurd (hfront ▸ h) (hlost as' mid h')

theorem eq_of_append_cons_eq_first (h : c ∉ as) (h' : c ∉ as')
    (heq : as ++ c :: bs = as' ++ c :: bs') : as = as' ∧ bs = bs' :=
  eq_of_append_cons_eq (P := (c ∉ ·)) (fun _ _ _ hno => hno (by simp)) h h' heq

theorem eq_of_append_cons_eq_last (h : c ∉ bs) (h' : c ∉ bs')
    (heq : as ++ c :: bs = as' ++ c :: bs') : as = as' ∧ bs = bs' := by
  have hreverse := congrArg List.reverse heq
  simp only [List.reverse_append, List.reverse_cons, List.append_assoc, List.cons_append,
    List.nil_append] at hreverse
  obtain ⟨hbs, has⟩ := eq_of_append_cons_eq_first (by simpa using h) (by simpa using h') hreverse
  exact ⟨List.reverse_injective has, List.reverse_injective hbs⟩

/-- Lists whose elements have something in common in turn have all in common that follows from it. -/
theorem map_eq_map_of_imp {β γ : Type} {f : α → β} {g : α → γ}
    (h : ∀ a ∈ as, ∀ b ∈ bs, f a = f b → g a = g b) (heq : as.map f = bs.map f) :
    as.map g = bs.map g := by
  induction as generalizing bs with
  | nil =>
    rw [List.map_nil, eq_comm, List.map_eq_nil_iff] at heq
    rw [heq]
  | cons a as ih =>
    cases bs with
    | nil => cases heq
    | cons b bs =>
      obtain ⟨hhead, htail⟩ := List.cons.inj heq
      rw [List.map_cons, List.map_cons, h a List.mem_cons_self b List.mem_cons_self hhead,
        ih (fun a' ha' b' hb' => h a' (List.mem_cons_of_mem _ ha') b' (List.mem_cons_of_mem _ hb'))
          htail]

end Wiring
