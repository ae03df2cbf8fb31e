import Wiring.Proofs.Order.BreadthFirst

/-!
# Breadth-first order

The successors of the items of a queue, the successors of those and so on make up the layers of a
tree, in which an item has a place for each way that leads to it. A search visits the tree layer by
layer and leaves out what has a key that came before. So the first visited item of some kind is the
first of that kind in the tree.
-/

namespace Wiring.BreadthFirst

variable {α κ : Type} {key : α → κ} {next : α → List α} {scope seen seen' : List κ}
  {start queue : List α} {n : Nat}

/-- The items that so many steps lead to, in order, with a place for each way. -/
def layer (next : α → List α) (start : List α) : Nat → List α
  | 0 => start
  | n + 1 => (layer next start n).flatMap next

theorem mem_layer_iff {a : α} : a ∈ layer next start n ↔ Path next start n a := by
  induction n generalizing a with
  | zero =>
    constructor
    · exact .start
    · rintro ⟨h⟩
      exact h
  | succ n ih =>
    rw [layer, List.mem_flatMap]
    constructor
    · rintro ⟨b, hb, ha⟩
      exact .step (ih.1 hb) ha
    · intro h
      obtain ⟨b, hb, ha⟩ := h.exists_of_succ
      exact ⟨b, ih.2 hb, ha⟩

variable [DecidableEq κ]

/-! ## What is left out -/

theorem fresh_eq_nil {as : List α} (h : ∀ a ∈ as, key a ∈ seen) : fresh key seen as = [] := by
  refine List.eq_nil_iff_forall_not_mem.2 fun a ha => ?_
  obtain ⟨hmem, hseen⟩ := mem_of_mem_fresh ha
  exact hseen (h a hmem)

/-- What an item leads to that is left out came before: as the successors of an item of the same
key, or because it was seen. -/
theorem fresh_flatMap {as : List α}
    (hnext : ∀ a ∈ as, ∀ b ∈ as, key a = key b → next a = next b)
    (hseen : ∀ a ∈ as, key a ∈ seen → ∀ b ∈ next a, key b ∈ seen') :
    fresh key seen' ((fresh key seen as).flatMap next) = fresh key seen' (as.flatMap next) := by
  induction as generalizing seen seen' with
  | nil => rfl
  | cons a as ih =>
    have hnext' : ∀ b ∈ as, ∀ c ∈ as, key b = key c → next b = next c :=
      fun b hb c hc => hnext b (List.mem_cons_of_mem _ hb) c (List.mem_cons_of_mem _ hc)
    by_cases ha : key a ∈ seen
    · have hnone : fresh key seen' (next a) = [] := fresh_eq_nil (hseen a List.mem_cons_self ha)
      rw [fresh, if_pos ha, List.flatMap_cons, fresh_append, marked, hnone]
      exact ih hnext' fun b hb => hseen b (List.mem_cons_of_mem _ hb)
    · rw [fresh, if_neg ha, List.flatMap_cons, List.flatMap_cons, fresh_append, fresh_append]
      refine congrArg _ (ih hnext' fun b hb hkey c hc => mem_marked_iff.2 ?_)
      rcases List.mem_cons.1 hkey with hkey | hkey
      · rw [hnext b (List.mem_cons_of_mem _ hb) a List.mem_cons_self hkey] at hc
        exact .inr ⟨c, hc, rfl⟩
      · exact .inl (hseen b (List.mem_cons_of_mem _ hb) hkey c hc)

/-- Where items of one key are alike, the first of some kind is not left out. -/
theorem find?_fresh {p : α → Bool} {as : List α}
    (hp : ∀ a ∈ as, ∀ b ∈ as, key a = key b → p a = p b)
    (hseen : ∀ a ∈ as, key a ∈ seen → p a = false) :
    (fresh key seen as).find? p = as.find? p := by
  induction as generalizing seen with
  | nil => rfl
  | cons a as ih =>
    have hp' : ∀ b ∈ as, ∀ c ∈ as, key b = key c → p b = p c :=
      fun b hb c hc => hp b (List.mem_cons_of_mem _ hb) c (List.mem_cons_of_mem _ hc)
    have hseen' : ∀ b ∈ as, key b ∈ seen → p b = false :=
      fun b hb => hseen b (List.mem_cons_of_mem _ hb)
    rw [fresh]
    split
    · next ha =>
      rw [List.find?_cons, hseen a List.mem_cons_self ha]
      exact ih hp' hseen'
    · rw [List.find?_cons, List.find?_cons]
      cases ha : p a with
      | true => rfl
      | false =>
        refine ih hp' fun b hb hkey => ?_
        rcases List.mem_cons.1 hkey with hkey | hkey
        · rw [hp b (List.mem_cons_of_mem _ hb) a List.mem_cons_self hkey, ha]
        · exact hseen' b hb hkey

/-! ## Searches in order -/

variable (hs : Searchable key next scope start)

include hs

/-- One layer after another: what is new in the queue is what is new in the layer, and then it is so
for the next ones. -/
theorem Level.fresh_succ (h : Level key next start n seen queue)
    (hqueue : fresh key seen queue = fresh key seen (layer next start n)) :
    fresh key (marked key seen queue) ((fresh key seen queue).flatMap next) =
      fresh key (marked key seen queue) (layer next start (n + 1)) := by
  rw [hqueue, layer]
  refine fresh_flatMap ?_ fun a ha hkey b hb => ?_
  · exact fun a ha b hb => hs.next_eq (mem_layer_iff.1 ha) (mem_layer_iff.1 hb)
  · -- an item of this key was visited before, and its successors are no further than the queue
    obtain ⟨i, hi, c, hc, hkey⟩ := (h.mem_seen_iff _).1 hkey
    rw [← hs.next_eq hc (mem_layer_iff.1 ha) hkey] at hb
    exact ((h.succ hs).mem_seen_iff _).2 ⟨i + 1, Nat.succ_lt_succ hi, b, .step hc hb, rfl⟩

theorem Level.exists_visit_eq (h : Level key next start n seen queue)
    (hqueue : fresh key seen queue = fresh key seen (layer next start n)) :
    ∃ count, visit key next scope seen queue =
      fresh key seen ((List.range' n count).flatMap (layer next start)) := by
  induction h using Level.induction hs with
  | nil n seen h => exact ⟨0, by rw [visit]; rfl⟩
  | level n seen queue h ih =>
    obtain ⟨count, hvisit⟩ := ih (h.fresh_succ hs hqueue)
    have hmarked : marked key seen queue = marked key seen (layer next start n) := by
      rw [marked, hqueue, marked]
    refine ⟨count + 1, ?_⟩
    rw [h.visit_eq hs, hvisit, hqueue, hmarked, List.range'_succ, List.flatMap_cons, fresh_append]

/-- **A search visits the layers of its tree one after another**, and leaves out what has a key that
came before. -/
theorem exists_visit_eq_fresh_layers :
    ∃ count, visit key next scope [] start =
      fresh key [] ((List.range count).flatMap (layer next start)) := by
  obtain ⟨count, hvisit⟩ := level_zero.exists_visit_eq hs rfl
  exact ⟨count, by rw [List.range_eq_range', hvisit]⟩

/-- **The first visited item of some kind is the first in the tree.** -/
theorem exists_layer_of_find?_visit {p : α → Bool} {a : α}
    (hp : ∀ a b, key a = key b → p a = p b)
    (h : (visit key next scope [] start).find? p = some a) :
    ∃ n, (layer next start n).find? p = some a ∧
      ∀ k < n, (layer next start k).find? p = none := by
  obtain ⟨count, hvisit⟩ := exists_visit_eq_fresh_layers hs
  rw [hvisit, find?_fresh (fun a _ b _ => hp a b) fun _ _ h => absurd h List.not_mem_nil,
    List.find?_flatMap, List.findSome?_eq_some_iff] at h
  obtain ⟨before, n, after, hrange, hn, hbefore⟩ := h
  -- the layers before the one that holds the item are those with a lesser number
  rw [List.range_eq_range', List.range'_eq_append_iff] at hrange
  obtain ⟨k, _, rfl, hrest⟩ := hrange
  obtain ⟨hk, _, _⟩ := List.range'_eq_cons_iff.1 hrest.symm
  refine ⟨n, hn, fun i hi => hbefore i (List.mem_range'_1.2 ⟨Nat.zero_le i, ?_⟩)⟩
  omega

end Wiring.BreadthFirst
