import Wiring.Proofs.Order.Ascending

/-!
# Sorted maps

An ascending list of bindings, in the order of their keys, is a map: a binding takes the place of
one whose key is equal to its own in that order. Where the order finds only equal keys equal, the
map holds what a search by equality finds among the bindings.
-/

namespace Wiring.Ascending

variable {α β κ : Type} {cmp : κ → κ → Ordering}

/-! ## Elements in the same place -/

/-- An ascending list holds no two elements with the same place in the order. -/
theorem IsAscending.eq_of_compare_eq {cmp : α → α → Ordering} [Std.TransCmp cmp] {as : List α}
    (h : IsAscending cmp as) {a b : α} (ha : a ∈ as) (hb : b ∈ as) (heq : cmp a b = .eq) :
    a = b := by
  induction as with
  | nil => cases ha
  | cons c cs ih =>
    obtain ⟨hfirst, hrest⟩ := List.pairwise_cons.1 h
    rcases List.mem_cons.1 ha with rfl | hacs
    · rcases List.mem_cons.1 hb with rfl | hbcs
      · rfl
      · have hlt := hfirst b hbcs
        rw [heq] at hlt
        cases hlt
    · rcases List.mem_cons.1 hb with rfl | hbcs
      · have hlt := hfirst a hacs
        rw [Std.OrientedCmp.eq_symm heq] at hlt
        cases hlt
      · exact ih hrest hacs hbcs

/-- An inserted element takes the place of the one that is equal to it in the order, if there is
one, and leaves the others where they are. -/
theorem IsAscending.mem_insert_iff {cmp : α → α → Ordering} [Std.TransCmp cmp] {as : List α}
    (h : IsAscending cmp as) {a b : α} :
    b ∈ insert cmp a as ↔ b = a ∨ b ∈ as ∧ cmp a b ≠ .eq := by
  constructor
  · intro hb
    by_cases heq : cmp a b = .eq
    · have hself : a ∈ insert cmp a as := mem_insert_self a as
      exact .inl ((isAscending_insert h).eq_of_compare_eq hself hb heq).symm
    · exact (mem_insert hb).imp_right fun hmem => ⟨hmem, heq⟩
  · rintro (rfl | ⟨hb, hne⟩)
    · exact mem_insert_self b as
    · exact mem_insert_of_mem hb hne

/-! ## Bindings -/

/-- Bindings compare by their keys. -/
def compareKeys (cmp : κ → κ → Ordering) (a b : κ × β) : Ordering := cmp a.1 b.1

instance [Std.TransCmp cmp] : Std.TransCmp (compareKeys (β := β) cmp) where
  eq_swap {a b} := Std.OrientedCmp.eq_swap (a := a.1) (b := b.1)
  isLE_trans {a b c} := Std.TransCmp.isLE_trans (a := a.1) (b := b.1) (c := c.1)

/-- The map that some bindings make; of those of one key the first stays. -/
def sortedMap (cmp : κ → κ → Ordering) (bindings : List (κ × β)) : List (κ × β) :=
  ofList (compareKeys cmp) bindings

/-- **The keys of a sorted map** are in ascending order. -/
theorem isAscending_keys_sortedMap [Std.TransCmp cmp] (bindings : List (κ × β)) :
    IsAscending cmp ((sortedMap cmp bindings).map Prod.fst) := by
  have hbindings : IsAscending (compareKeys cmp) (sortedMap cmp bindings) :=
    isAscending_ofList bindings
  exact List.pairwise_map.2 hbindings

/-- **A sorted map holds what equality finds**, where the order finds only equal keys equal. -/
theorem mem_sortedMap_iff [DecidableEq κ] [Std.TransCmp cmp] {bindings : List (κ × β)} {key : κ}
    {value : β} (hkey : ∀ b ∈ bindings, cmp b.1 key = .eq → b.1 = key) :
    (key, value) ∈ sortedMap cmp bindings ↔ bindings.lookup key = some value := by
  induction bindings with
  | nil => simp [sortedMap, ofList]
  | cons b bs ih =>
    obtain ⟨hb, hbs⟩ := List.forall_mem_cons.1 hkey
    have hmem : (key, value) ∈ sortedMap cmp (b :: bs) ↔
        (key, value) = b ∨ (key, value) ∈ sortedMap cmp bs ∧ cmp b.1 key ≠ .eq :=
      IsAscending.mem_insert_iff (isAscending_ofList bs)
    obtain ⟨k, v⟩ := b
    rw [hmem, ih hbs, List.lookup_cons]
    by_cases heq : key = k
    · subst heq
      have hself : cmp key key = .eq := Std.ReflCmp.compare_self
      simp [hself, eq_comm]
    · have hne : cmp k key ≠ .eq := fun h => heq (hb h).symm
      have hbeq : (key == k) = false := beq_false_of_ne heq
      simp [heq, hne, hbeq]

end Wiring.Ascending
