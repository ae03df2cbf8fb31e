import Mathlib.Data.List.Basic
import Wiring.Order.Ascending

/-!
# Ascending lists as sets

`ofList` keeps one element of each class of equals, and an ascending list is determined by its
members. So the list of the distinct elements of some list does not depend on the order in which
they were met.
-/

namespace Wiring.Ascending

variable {α : Type} {cmp : α → α → Ordering}

theorem mem_insert_self (a : α) (as : List α) : a ∈ insert cmp a as := by
  induction as with
  | nil => simp [insert]
  | cons b bs ih =>
    unfold insert
    split <;> simp [ih]

/-- Insertion takes away no element but an equal one. -/
theorem mem_insert_of_mem {a b : α} {as : List α} (hb : b ∈ as) (h : cmp a b ≠ .eq) :
    b ∈ insert cmp a as := by
  induction as with
  | nil => cases hb
  | cons c cs ih =>
    unfold insert
    split
    · exact List.mem_cons_of_mem _ hb
    · next heq =>
      rcases List.mem_cons.1 hb with rfl | hb
      · exact absurd heq h
      · exact List.mem_cons_of_mem _ hb
    · rcases List.mem_cons.1 hb with rfl | hb
      · exact List.mem_cons_self
      · exact List.mem_cons_of_mem _ (ih hb)

theorem mem_of_mem_ofList {a : α} {as : List α} (h : a ∈ ofList cmp as) : a ∈ as := by
  induction as with
  | nil => simp [ofList] at h
  | cons b bs ih =>
    rcases mem_insert (show a ∈ insert cmp b (ofList cmp bs) from h) with rfl | h
    · exact List.mem_cons_self
    · exact List.mem_cons_of_mem _ (ih h)

/-- Every element is there, or one that is equal to it in the order. -/
theorem exists_mem_ofList [Std.TransCmp cmp] {a : α} {as : List α}
    (h : a ∈ as) : ∃ b ∈ ofList cmp as, cmp a b = .eq := by
  induction as with
  | nil => cases h
  | cons c cs ih =>
    have hself : c ∈ ofList cmp (c :: cs) := mem_insert_self c (ofList cmp cs)
    rcases List.mem_cons.1 h with rfl | h
    · exact ⟨a, hself, Std.ReflCmp.compare_self⟩
    · obtain ⟨b, hb, hab⟩ := ih h
      by_cases hcb : cmp c b = .eq
      · exact ⟨c, hself, Std.TransCmp.eq_trans hab (Std.OrientedCmp.eq_symm hcb)⟩
      · exact ⟨b, mem_insert_of_mem hb hcb, hab⟩

theorem isAscending_ofList [Std.TransCmp cmp] (as : List α) : IsAscending cmp (ofList cmp as) := by
  induction as with
  | nil => exact List.Pairwise.nil
  | cons a as ih => exact isAscending_insert ih

/-- The members of `ofList` where only equal elements compare as equal. -/
theorem mem_ofList_iff [Std.TransCmp cmp] {a : α} {as : List α}
    (hinj : ∀ a ∈ as, ∀ b ∈ as, cmp a b = .eq → a = b) : a ∈ ofList cmp as ↔ a ∈ as := by
  constructor
  · exact mem_of_mem_ofList
  · intro ha
    obtain ⟨b, hb, hab⟩ : ∃ b ∈ ofList cmp as, cmp a b = .eq := exists_mem_ofList ha
    rwa [hinj a ha b (mem_of_mem_ofList hb) hab]

theorem IsAscending.nodup [Std.ReflCmp cmp] {as : List α} (h : IsAscending cmp as) :
    as.Nodup := by
  refine List.Pairwise.imp ?_ h
  rintro a b hab rfl
  have hself : cmp a a = .eq := Std.ReflCmp.compare_self
  rw [hself] at hab
  cases hab

/-- **An ascending list is determined by its members.** -/
theorem IsAscending.eq_of_mem_iff [Std.TransCmp cmp] {as bs : List α}
    (ha : IsAscending cmp as) (hb : IsAscending cmp bs) (h : ∀ a, a ∈ as ↔ a ∈ bs) :
    as = bs := by
  have hperm : as.Perm bs := (List.perm_ext_iff_of_nodup ha.nodup hb.nodup).2 h
  -- two elements cannot both come before the other
  refine hperm.eq_of_pairwise ?_ ha hb
  intro a b _ _ hab hba
  rw [Std.OrientedCmp.gt_of_lt hab] at hba
  cases hba

/-- The distinct elements do not depend on the order in which they were met. -/
theorem ofList_eq_of_mem_iff [Std.TransCmp cmp] {as bs : List α}
    (hinj : ∀ a ∈ as, ∀ b ∈ as, cmp a b = .eq → a = b) (h : ∀ a, a ∈ as ↔ a ∈ bs) :
    ofList cmp as = ofList cmp bs := by
  refine (isAscending_ofList as).eq_of_mem_iff (isAscending_ofList bs) fun a => ?_
  rw [mem_ofList_iff hinj, h a, mem_ofList_iff]
  exact fun a ha b hb => hinj a ((h a).2 ha) b ((h b).2 hb)

end Wiring.Ascending
