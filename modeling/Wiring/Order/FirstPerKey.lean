/-!
Lists in which each key occurs once, with the first element that has it.
-/

namespace Wiring

variable {α κ : Type} [DecidableEq κ]

/-- The elements of a list without those whose key an earlier element has. -/
def firstPerKey (key : α → κ) : List α → List α
  | [] => []
  | a :: as => a :: (firstPerKey key as).filter fun b => key b ≠ key a

theorem mem_of_mem_firstPerKey {key : α → κ} {a : α} {as : List α}
    (h : a ∈ firstPerKey key as) : a ∈ as := by
  induction as with
  | nil => simp [firstPerKey] at h
  | cons b bs ih =>
    simp only [firstPerKey, List.mem_cons, List.mem_filter] at h
    rcases h with rfl | ⟨h, _⟩
    · exact List.mem_cons_self
    · exact List.mem_cons_of_mem _ (ih h)

theorem pairwise_firstPerKey (key : α → κ) (as : List α) :
    (firstPerKey key as).Pairwise fun a b => key a ≠ key b := by
  induction as with
  | nil => exact List.Pairwise.nil
  | cons a as ih =>
    refine List.pairwise_cons.2 ⟨fun b hb => ?_, ih.sublist List.filter_sublist⟩
    simpa using Ne.symm (of_decide_eq_true (List.mem_filter.1 hb).2)

end Wiring
