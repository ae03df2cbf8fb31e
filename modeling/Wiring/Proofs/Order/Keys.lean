import Mathlib.Data.Fin.Basic
import Mathlib.Data.List.FinRange
import Mathlib.Data.List.Nodup
import Wiring.Order.FirstPerKey

/-!
# Lists by keys

The elements of a list can be taken key by key, which changes their order only. And of each key the
first element can be kept: which one that is, is told here by the places in the list.
-/

namespace Wiring

variable {α κ : Type}

/-- The elements with one of the keys, key by key. -/
theorem perm_flatMap_filter [BEq κ] [LawfulBEq κ] (key : α → κ) (as : List α) {ks : List κ}
    (hnodup : ks.Nodup) :
    (ks.flatMap fun k => as.filter (key · == k)).Perm (as.filter (ks.contains <| key ·)) := by
  induction ks with
  | nil => simp
  | cons k ks ih =>
    obtain ⟨hk, hks⟩ := List.nodup_cons.1 hnodup
    -- of the elements with one of the keys, those with the first key and those with another one
    have hfirst : (as.filter ((k :: ks).contains <| key ·)).filter (key · == k) =
        as.filter (key · == k) := by
      rw [List.filter_filter]
      refine List.filter_congr fun a _ => ?_
      by_cases ha : key a = k <;> simp [ha]
    have hother : (as.filter ((k :: ks).contains <| key ·)).filter (!key · == k) =
        as.filter (ks.contains <| key ·) := by
      rw [List.filter_filter]
      refine List.filter_congr fun a _ => ?_
      by_cases ha : key a = k <;> simp [ha, hk]
    have hsplit := List.filter_append_perm (key · == k) (as.filter ((k :: ks).contains <| key ·))
    rw [hfirst, hother] at hsplit
    rw [List.flatMap_cons]
    exact ((ih hks).append_left _).trans hsplit

/-! ## The first element of each key -/

variable {key : α → κ} {p : α → Bool} {a : α} {as : List α}

/-- The element at some place has `p`, and its key is not that of an earlier element that has `p`. -/
def IsFirst (key : α → κ) (p : α → Bool) (as : List α) (i : Fin as.length) : Prop :=
  p as[i] = true ∧ ∀ j < i, p as[j] = true → key as[i] ≠ key as[j]

instance [DecidableEq κ] : DecidablePred (IsFirst key p as) :=
  fun _ => inferInstanceAs (Decidable (_ ∧ ∀ _, _))

theorem isFirst_zero : IsFirst key p (a :: as) (0 : Fin (as.length + 1)) ↔ p a = true :=
  ⟨fun h => h.1, fun h => ⟨h, fun j hj => absurd hj (Nat.not_lt_zero j)⟩⟩

theorem isFirst_succ {i : Fin as.length} :
    IsFirst key p (a :: as) i.succ ↔ IsFirst key p as i ∧ (p a = true → key as[i] ≠ key a) := by
  constructor
  · rintro ⟨hp, hbefore⟩
    refine ⟨⟨hp, fun j hj => hbefore j.succ (Fin.succ_lt_succ_iff.2 hj)⟩, ?_⟩
    exact hbefore (0 : Fin (as.length + 1)) (Fin.succ_pos i)
  · rintro ⟨⟨hp, hbefore⟩, hfirst⟩
    refine ⟨hp, fun j hj => ?_⟩
    induction j using Fin.cases with
    | zero => exact hfirst
    | succ j => exact hbefore j (Fin.succ_lt_succ_iff.1 hj)

/-- Where an element has `p`, the first one of its key is there or before it. -/
theorem exists_isFirst (i : Fin as.length) (hp : p as[i] = true) :
    ∃ j ≤ i, IsFirst key p as j ∧ key as[i] = key as[j] := by
  induction i using WellFoundedLT.induction with
  | ind i ih =>
    by_cases hfirst : IsFirst key p as i
    · exact ⟨i, Nat.le_refl i, hfirst, rfl⟩
    · have hearlier : ∃ j < i, p as[j] = true ∧ key as[i] = key as[j] := by
        by_contra hnone
        exact hfirst ⟨hp, fun j hj hpj hkey => hnone ⟨j, hj, hpj, hkey⟩⟩
      obtain ⟨j, hj, hpj, hkey⟩ := hearlier
      obtain ⟨k, hk, hkfirst, hkkey⟩ := ih j hj hpj
      exact ⟨k, Nat.le_trans hk (Nat.le_of_lt hj), hkfirst, hkey.trans hkkey⟩

variable [DecidableEq κ]

/-- **An element is kept if it is the first of its key**, among those that have `p`. -/
theorem firstPerKey_filter_eq (key : α → κ) (p : α → Bool) (as : List α) :
    firstPerKey key (as.filter p) =
      ((List.finRange as.length).filter fun i => IsFirst key p as i).map as.get := by
  induction as with
  | nil => rfl
  | cons a as ih =>
    have hrange : List.finRange (a :: as).length =
        (0 : Fin (as.length + 1)) :: (List.finRange as.length).map Fin.succ := List.finRange_succ
    have hrest : ((List.finRange as.length).map Fin.succ).filter
          (fun i => decide (IsFirst key p (a :: as) i)) =
        (((List.finRange as.length).filter fun i => IsFirst key p as i).filter fun i =>
          p a = true → key as[i] ≠ key a).map Fin.succ := by
      rw [List.filter_map, List.filter_filter]
      refine congrArg _ (List.filter_congr fun i _ => ?_)
      rw [Bool.eq_iff_iff, Bool.and_eq_true, Function.comp_apply, decide_eq_true_iff,
        decide_eq_true_iff, decide_eq_true_iff, isFirst_succ, and_comm]
    have hzero : decide (IsFirst key p (a :: as) (0 : Fin (as.length + 1))) = p a := by
      rw [Bool.eq_iff_iff, decide_eq_true_iff, isFirst_zero]
    rw [hrange]
    cases hp : p a with
    | true =>
      rw [List.filter_cons_of_pos hp, firstPerKey, ih, List.filter_map,
        List.filter_cons_of_pos (by rw [hzero, hp]), List.map_cons, hrest, List.map_map]
      simp only [hp, true_imp_iff, Function.comp_def]
      rfl
    | false =>
      rw [List.filter_cons_of_neg (by simp [hp]), ih,
        List.filter_cons_of_neg (by rw [hzero, hp]; exact Bool.false_ne_true), hrest, List.map_map]
      simp only [hp, Bool.false_eq_true, false_imp_iff, decide_true, List.filter_true]
      rfl

end Wiring
