import Mathlib.Data.String.Basic
import Wiring.Files.Tree

/-!
# The order of files

Below a directory of a file tree the files stand in the order of their paths, name by name.
-/

namespace Wiring.FileTree

variable {t : FileTree} {location names : List String} {path : String} {below : List FileBelow}

/-- Paths are compared name by name. -/
theorem comesBefore_iff {as bs : List String} : comesBefore as bs ↔ as ≤ bs := by
  induction as generalizing bs with
  | nil => exact iff_of_true rfl (not_lt.1 (List.not_lt_nil bs))
  | cons a as ih =>
    cases bs with
    | nil => simp [comesBefore]
    | cons b bs =>
      rw [comesBefore, Bool.or_eq_true, Bool.and_eq_true, decide_eq_true_iff, beq_iff_eq, ih,
        ← not_lt, ← not_lt, List.cons_lt_cons_iff]
      rcases lt_trichotomy a b with h | rfl | h
      · simp only [h, h.not_gt, h.ne', true_or, false_and, or_false, not_false_iff]
      · simp only [lt_irrefl, false_or, true_and]
      · simp only [h, h.not_gt, h.ne', true_or, false_and, or_false, not_true]

theorem pairwise_filesBelow (t : FileTree) (location : List String) :
    (t.filesBelow location).Pairwise fun f g => f.path ≤ g.path := by
  have hsorted : ∀ files : List FileBelow,
      (files.mergeSort fun f g => comesBefore f.path g.path).Pairwise fun f g =>
        comesBefore f.path g.path := by
    refine List.pairwise_mergeSort ?_ ?_
    · intro f g h hfg hgh
      rw [comesBefore_iff] at hfg hgh ⊢
      exact le_trans hfg hgh
    · intro f g
      rw [Bool.or_eq_true, comesBefore_iff, comesBefore_iff]
      exact le_total _ _
  exact (hsorted _).imp comesBefore_iff.1

theorem eq_of_at?_eq (h : t.at? location = .directory below) : below = t.filesBelow location := by
  unfold at? at h
  split at h
  · cases h
  · split at h <;> cases h
    rfl

theorem eq_nil_of_followAbove_eq (h : followAbove names = .directory below) : below = [] := by
  induction names with
  | nil =>
    cases h
    rfl
  | cons name rest ih =>
    rw [followAbove] at h
    split at h
    · exact ih h
    · split at h <;> cases h

theorem pairwise_of_follow (h : t.follow location names = .directory below) :
    below.Pairwise fun f g => f.path ≤ g.path := by
  induction names generalizing location with
  | nil =>
    rw [eq_of_at?_eq h]
    exact pairwise_filesBelow t location
  | cons name rest ih =>
    rw [follow] at h
    split at h
    · cases h
    · -- what follows a directory: a name that stays, one that goes back up, or one of an entry
      split at h
      · exact ih h
      · split at h
        · split at h
          · rw [eq_nil_of_followAbove_eq h]
            exact .nil
          · exact ih h
        · split at h
          · cases h
          · exact ih h
    · rw [eq_of_at?_eq h]
      exact pairwise_filesBelow t location

/-- **The files below a directory** stand in the order of their paths. -/
theorem pairwise_of_find (h : t.find path = .directory below) :
    below.Pairwise fun f g => f.path ≤ g.path := by
  unfold find at h
  split at h
  · cases h
  · split at h
    · cases h
    · split at h
      · cases h
      · split at h
        · rw [eq_nil_of_followAbove_eq h]
          exact .nil
        · exact pairwise_of_follow h

end Wiring.FileTree
