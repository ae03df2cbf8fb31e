import Mathlib.Data.List.Basic
import Mathlib.Data.List.Nodup
import Wiring.Order.BreadthFirst

/-!
# Breadth-first search, level by level

A search visits what is new in its queue and goes on with the successors of that. So it meets the
items in levels: with the items at `n` steps in the queue, the keys seen so far are those that fewer
steps lead to. What is visited is therefore all that can be reached, each key once, and none before
another that fewer steps lead to.
-/

namespace Wiring.BreadthFirst

variable {α κ : Type} [DecidableEq κ] {key : α → κ} {next : α → List α} {scope seen : List κ}
  {start queue : List α} {n : Nat}

/-! ## Paths -/

/-- The items that so many steps lead to. -/
inductive Path (next : α → List α) (start : List α) : Nat → α → Prop
  | start {a : α} (h : a ∈ start) : Path next start 0 a
  | step {n : Nat} {a b : α} (h : Path next start n a) (hb : b ∈ next a) :
    Path next start (n + 1) b

theorem Path.exists_of_succ {b : α} (h : Path next start (n + 1) b) :
    ∃ a, Path next start n a ∧ b ∈ next a := by
  cases h with
  | step ha hb => exact ⟨_, ha, hb⟩

/-- The keys that so many steps lead to. -/
def At (key : α → κ) (next : α → List α) (start : List α) (n : Nat) (k : κ) : Prop :=
  ∃ a, Path next start n a ∧ key a = k

/-- What a search relies on: items of one key have the same successors, and items out of scope have
none. -/
structure Searchable (key : α → κ) (next : α → List α) (scope : List κ) (start : List α) : Prop where
  next_eq : ∀ {m n a b}, Path next start m a → Path next start n b → key a = key b →
    next a = next b
  next_eq_nil : ∀ {n a}, Path next start n a → key a ∉ scope → next a = []

/-! ## New items -/

/-- The items of a queue that are visited: those with a new key. -/
def fresh (key : α → κ) (seen : List κ) : List α → List α
  | [] => []
  | a :: as => if key a ∈ seen then fresh key seen as else a :: fresh key (key a :: seen) as

/-- The keys that are seen once the items of a queue are visited. -/
def marked (key : α → κ) (seen : List κ) (as : List α) : List κ :=
  ((fresh key seen as).map key).reverse ++ seen

theorem mem_of_mem_fresh {a : α} {as : List α} (h : a ∈ fresh key seen as) :
    a ∈ as ∧ key a ∉ seen := by
  induction as generalizing seen with
  | nil => cases h
  | cons b bs ih =>
    rw [fresh] at h
    split at h
    · obtain ⟨hmem, hseen⟩ := ih h
      exact ⟨List.mem_cons_of_mem _ hmem, hseen⟩
    · next hb =>
      rcases List.mem_cons.1 h with rfl | h
      · exact ⟨List.mem_cons_self, hb⟩
      · obtain ⟨hmem, hseen⟩ := ih h
        exact ⟨List.mem_cons_of_mem _ hmem, fun hk => hseen (List.mem_cons_of_mem _ hk)⟩

/-- Every key of a queue was seen before or is that of a new item. -/
theorem exists_mem_fresh {a : α} {as : List α} (h : a ∈ as) :
    key a ∈ seen ∨ ∃ b ∈ fresh key seen as, key b = key a := by
  induction as generalizing seen with
  | nil => cases h
  | cons b bs ih =>
    rw [fresh]
    split
    · next hb =>
      rcases List.mem_cons.1 h with rfl | h
      · exact .inl hb
      · exact ih h
    · rcases List.mem_cons.1 h with rfl | h
      · exact .inr ⟨a, List.mem_cons_self, rfl⟩
      · have hrest : key a ∈ key b :: seen ∨ ∃ c ∈ fresh key (key b :: seen) bs, key c = key a :=
          ih h
        rcases hrest with hseen | ⟨c, hc, hkey⟩
        · rcases List.mem_cons.1 hseen with hkey | hseen
          · exact .inr ⟨b, List.mem_cons_self, hkey.symm⟩
          · exact .inl hseen
        · exact .inr ⟨c, List.mem_cons_of_mem _ hc, hkey⟩

theorem mem_marked_iff {k : κ} {as : List α} :
    k ∈ marked key seen as ↔ k ∈ seen ∨ ∃ a ∈ as, key a = k := by
  simp only [marked, List.mem_append, List.mem_reverse, List.mem_map]
  constructor
  · rintro (⟨a, ha, rfl⟩ | h)
    · exact .inr ⟨a, (mem_of_mem_fresh ha).1, rfl⟩
    · exact .inl h
  · rintro (h | ⟨a, ha, rfl⟩)
    · exact .inr h
    · exact (exists_mem_fresh ha).symm

theorem fresh_append (seen : List κ) (as bs : List α) :
    fresh key seen (as ++ bs) = fresh key seen as ++ fresh key (marked key seen as) bs := by
  induction as generalizing seen with
  | nil => rfl
  | cons a as ih =>
    rw [List.cons_append, fresh, marked, fresh]
    split
    · exact ih seen
    · rw [ih]
      simp [marked]

theorem marked_append (seen : List κ) (as bs : List α) :
    marked key seen (as ++ bs) = marked key (marked key seen as) bs := by
  rw [marked, fresh_append]
  simp [marked]

/-! ## Steps of a search -/

theorem visit_cons_of_mem {a : α} {as : List α} (h : key a ∈ seen) :
    visit key next scope seen (a :: as) = visit key next scope seen as := by
  rw [visit, dif_pos h]

theorem visit_cons_of_not_mem {a : α} {as : List α} (h : key a ∉ seen)
    (hscope : key a ∉ scope → next a = []) :
    visit key next scope seen (a :: as) =
      a :: visit key next scope (key a :: seen) (as ++ next a) := by
  rw [visit, dif_neg h]
  split
  · rfl
  · next hk => rw [hscope hk, List.append_nil]

/-- **The items in front of a queue are visited before all others, and their successors after.** -/
theorem visit_append (seen : List κ) {as : List α} (bs : List α)
    (hscope : ∀ a ∈ as, key a ∉ scope → next a = []) :
    visit key next scope seen (as ++ bs) =
      fresh key seen as ++
        visit key next scope (marked key seen as) (bs ++ (fresh key seen as).flatMap next) := by
  induction as generalizing seen bs with
  | nil => simp [fresh, marked]
  | cons a as ih =>
    have hrest : ∀ b ∈ as, key b ∉ scope → next b = [] :=
      fun b hb => hscope b (List.mem_cons_of_mem _ hb)
    by_cases ha : key a ∈ seen
    · rw [List.cons_append, visit_cons_of_mem ha, ih seen bs hrest, fresh, if_pos ha, marked, marked,
        fresh, if_pos ha]
    · -- the successors of the first item go behind those that were there before
      rw [List.cons_append, visit_cons_of_not_mem ha (hscope a List.mem_cons_self),
        List.append_assoc, ih _ _ hrest]
      simp [fresh, marked, ha]

omit [DecidableEq κ] in
/-- A new item in front of items with other new keys. -/
theorem nodup_keys_cons {a : α} {as : List α} (h : key a ∉ seen)
    (has : (as.map key).Nodup ∧ ∀ b ∈ as, key b ∉ key a :: seen) :
    ((a :: as).map key).Nodup ∧ ∀ b ∈ a :: as, key b ∉ seen := by
  refine ⟨List.nodup_cons.2 ⟨fun hmem => ?_, has.1⟩, fun b hb hseen => ?_⟩
  · obtain ⟨b, hb, hkey⟩ := List.mem_map.1 hmem
    exact has.2 b hb (hkey ▸ List.mem_cons_self)
  · rcases List.mem_cons.1 hb with rfl | hb
    · exact h hseen
    · exact has.2 b hb (List.mem_cons_of_mem _ hseen)

/-- What holds of the queue and is handed on to successors holds of all that is visited. -/
theorem forall_mem_visit {P : α → Prop} (hqueue : ∀ a ∈ queue, P a)
    (hnext : ∀ a, P a → ∀ b ∈ next a, P b) : ∀ a ∈ visit key next scope seen queue, P a := by
  induction seen, queue using visit.induct key next scope with
  | case1 seen => simp [visit]
  | case2 seen a as hs ih =>
    rw [visit_cons_of_mem hs]
    exact ih fun b hb => hqueue b (List.mem_cons_of_mem _ hb)
  | case3 seen a as hs hk _ ih =>
    rw [visit, dif_neg hs, dif_pos hk, List.forall_mem_cons]
    rw [List.forall_mem_cons] at hqueue
    refine ⟨hqueue.1, ih ?_⟩
    rw [List.forall_mem_append]
    exact ⟨hqueue.2, hnext a hqueue.1⟩
  | case4 seen a as hs hk ih =>
    rw [visit, dif_neg hs, dif_neg hk, List.forall_mem_cons]
    rw [List.forall_mem_cons] at hqueue
    exact ⟨hqueue.1, ih hqueue.2⟩

/-- **No key is visited twice**, nor one that was seen before. -/
theorem nodup_keys_visit :
    ((visit key next scope seen queue).map key).Nodup ∧
      ∀ a ∈ visit key next scope seen queue, key a ∉ seen := by
  induction seen, queue using visit.induct key next scope with
  | case1 seen => simp [visit]
  | case2 seen a as hs ih => rwa [visit_cons_of_mem hs]
  | case3 seen a as hs hk _ ih =>
    rw [visit, dif_neg hs, dif_pos hk]
    exact nodup_keys_cons hs ih
  | case4 seen a as hs hk ih =>
    rw [visit, dif_neg hs, dif_neg hk]
    exact nodup_keys_cons hs ih

/-! ## Levels -/

/-- The state of a search at the beginning of a level. -/
structure Level (key : α → κ) (next : α → List α) (start : List α) (n : Nat) (seen : List κ)
    (queue : List α) : Prop where
  mem_seen_iff : ∀ k, k ∈ seen ↔ ∃ m < n, At key next start m k
  path : ∀ a ∈ queue, Path next start n a
  complete : ∀ k, At key next start n k → k ∈ seen ∨ ∃ a ∈ queue, key a = k

omit [DecidableEq κ] in
theorem level_zero : Level key next start 0 [] start where
  mem_seen_iff := by simp
  path := fun a ha => .start ha
  complete := by
    rintro _ ⟨a, ⟨ha⟩, rfl⟩
    exact .inr ⟨a, ha, rfl⟩

namespace Level

/-- **From one level to the next.** -/
theorem succ (hs : Searchable key next scope start) (h : Level key next start n seen queue) :
    Level key next start (n + 1) (marked key seen queue)
      ((fresh key seen queue).flatMap next) := by
  have hmarked : ∀ k, k ∈ marked key seen queue ↔ ∃ m < n + 1, At key next start m k := by
    intro k
    rw [mem_marked_iff]
    constructor
    · rintro (hk | ⟨a, ha, rfl⟩)
      · obtain ⟨m, hm, hat⟩ := (h.mem_seen_iff k).1 hk
        exact ⟨m, Nat.lt_succ_of_lt hm, hat⟩
      · exact ⟨n, Nat.lt_succ_self n, a, h.path a ha, rfl⟩
    · rintro ⟨m, hm, hat⟩
      rcases Nat.lt_succ_iff_lt_or_eq.1 hm with hm | rfl
      · exact .inl ((h.mem_seen_iff k).2 ⟨m, hm, hat⟩)
      · exact h.complete k hat
  refine ⟨hmarked, fun b hb => ?_, ?_⟩
  · obtain ⟨a, ha, hb⟩ := List.mem_flatMap.1 hb
    exact .step (h.path a (mem_of_mem_fresh ha).1) hb
  · rintro _ ⟨b, hpath, rfl⟩
    obtain ⟨a, ha, hb⟩ := hpath.exists_of_succ
    -- the step before led to a key that was seen earlier, or to one that is new in this level
    have hbefore : key a ∈ seen ∨ ∃ c ∈ fresh key seen queue, key c = key a := by
      rcases h.complete _ ⟨a, ha, rfl⟩ with hseen | ⟨c, hc, hkey⟩
      · exact .inl hseen
      · rw [← hkey]
        exact exists_mem_fresh hc
    rcases hbefore with hseen | ⟨c, hc, hkey⟩
    · obtain ⟨m, hm, c, hc, hkey⟩ := (h.mem_seen_iff _).1 hseen
      rw [← hs.next_eq hc ha hkey] at hb
      exact .inl ((hmarked _).2 ⟨m + 1, Nat.succ_lt_succ hm, b, .step hc hb, rfl⟩)
    · rw [← hs.next_eq (h.path c (mem_of_mem_fresh hc).1) ha hkey] at hb
      exact .inr ⟨b, List.mem_flatMap.2 ⟨c, hc, hb⟩, rfl⟩

theorem visit_eq (hs : Searchable key next scope start) (h : Level key next start n seen queue) :
    visit key next scope seen queue =
      fresh key seen queue ++
        visit key next scope (marked key seen queue) ((fresh key seen queue).flatMap next) := by
  have := visit_append seen [] fun a ha => hs.next_eq_nil (h.path a ha)
  rwa [List.append_nil, List.nil_append] at this

/-- What holds of the end of a search, and of a level if it holds of the next one, holds of every
level. -/
theorem induction (hs : Searchable key next scope start)
    {motive : ∀ n seen queue, Level key next start n seen queue → Prop}
    (nil : ∀ n seen h, motive n seen [] h)
    (level : ∀ n seen queue h,
      motive (n + 1) (marked key seen queue) ((fresh key seen queue).flatMap next) (h.succ hs) →
      motive n seen queue h)
    {n : Nat} {seen : List κ} {queue : List α} (h : Level key next start n seen queue) :
    motive n seen queue h := by
  generalize hlength : (visit key next scope seen queue).length = length
  induction length using Nat.strongRecOn generalizing n seen queue with
  | _ length ih =>
    refine level n seen queue h ?_
    by_cases hfresh : fresh key seen queue = []
    · have hnil : (fresh key seen queue).flatMap next = [] := by rw [hfresh]; rfl
      have hend : ∀ rest (hnext : Level key next start (n + 1) (marked key seen queue) rest),
          rest = [] → motive (n + 1) (marked key seen queue) rest hnext := by
        rintro _ hnext rfl
        exact nil _ _ hnext
      exact hend _ (h.succ hs) hnil
    · -- a level with a new item leaves less to visit
      refine ih _ ?_ (h.succ hs) rfl
      rw [← hlength, h.visit_eq hs, List.length_append]
      exact Nat.lt_add_of_pos_left (List.length_pos_iff.2 hfresh)

/-- An item is visited at the least number of steps that lead to its key. -/
theorem path_of_mem_visit (hs : Searchable key next scope start)
    (h : Level key next start n seen queue) :
    ∀ a ∈ visit key next scope seen queue,
      ∃ m, n ≤ m ∧ Path next start m a ∧ ∀ i < m, ¬At key next start i (key a) := by
  induction h using Level.induction hs with
  | nil n seen h => simp [visit]
  | level n seen queue h ih =>
    intro a ha
    rw [h.visit_eq hs, List.mem_append] at ha
    rcases ha with ha | ha
    · obtain ⟨hmem, hseen⟩ := mem_of_mem_fresh ha
      exact ⟨n, Nat.le_refl n, h.path a hmem,
        fun i hi hat => hseen ((h.mem_seen_iff _).2 ⟨i, hi, hat⟩)⟩
    · obtain ⟨m, hm, hpath, hleast⟩ := ih a ha
      exact ⟨m, Nat.le_of_succ_le hm, hpath, hleast⟩

/-- Whatever can be reached is visited, unless it was seen before. -/
theorem exists_mem_visit (hs : Searchable key next scope start)
    (h : Level key next start n seen queue) :
    ∀ m k, n ≤ m → At key next start m k →
      k ∈ seen ∨ ∃ a ∈ visit key next scope seen queue, key a = k := by
  induction h using Level.induction hs with
  | nil n seen h =>
    -- an empty level stays empty
    have hempty : ∀ m, n ≤ m → Level key next start m seen [] := by
      intro m hm
      induction hm with
      | refl => exact h
      | step _ ih => exact ih.succ hs
    intro m k hm hat
    exact ((hempty m hm).complete k hat).imp_right (by simp)
  | level n seen queue h ih =>
    intro m k hm hat
    rw [h.visit_eq hs]
    have hlevel : k ∈ marked key seen queue ∨ ∃ a ∈ visit key next scope (marked key seen queue)
        ((fresh key seen queue).flatMap next), key a = k := by
      rcases Nat.eq_or_lt_of_le hm with rfl | hm
      · exact .inl (((h.succ hs).mem_seen_iff k).2 ⟨n, Nat.lt_succ_self n, hat⟩)
      · exact ih m k hm hat
    rcases hlevel with hmarked | ⟨a, ha, hkey⟩
    · rcases mem_marked_iff.1 hmarked with hseen | ⟨a, ha, rfl⟩
      · exact .inl hseen
      · refine (exists_mem_fresh ha).imp_right ?_
        rintro ⟨b, hb, hkey⟩
        exact ⟨b, List.mem_append_left _ hb, hkey⟩
    · exact .inr ⟨a, List.mem_append_right _ ha, hkey⟩

theorem pairwise_visit (hs : Searchable key next scope start)
    (h : Level key next start n seen queue) :
    (visit key next scope seen queue).Pairwise fun a b =>
      ∀ m, At key next start m (key b) → ∃ i ≤ m, At key next start i (key a) := by
  induction h using Level.induction hs with
  | nil n seen h => simp [visit]
  | level n seen queue h ih =>
    have hvisit := h.path_of_mem_visit hs
    rw [h.visit_eq hs] at hvisit ⊢
    -- the new items are at `n` steps, and everything after them is at least as far
    have hfirst : ∀ a ∈ fresh key seen queue, ∀ b ∈ fresh key seen queue ++
        visit key next scope (marked key seen queue) ((fresh key seen queue).flatMap next),
        ∀ m, At key next start m (key b) → ∃ i ≤ m, At key next start i (key a) := by
      intro a ha b hb m hat
      obtain ⟨j, hj, _, hleast⟩ := hvisit b hb
      have hjm : j ≤ m := Nat.le_of_not_lt fun hlt => hleast m hlt hat
      exact ⟨n, Nat.le_trans hj hjm, a, h.path a (mem_of_mem_fresh ha).1, rfl⟩
    refine List.pairwise_append.2 ⟨?_, ih, fun a ha b hb => ?_⟩
    · exact List.pairwise_of_forall_mem_list fun a ha b hb =>
        hfirst a ha b (List.mem_append_left _ hb)
    · exact hfirst a ha b (List.mem_append_right _ hb)

end Level

/-! ## Searches -/

variable (hs : Searchable key next scope start)

include hs

/-- **A search visits exactly what can be reached.** -/
theorem mem_keys_visit_iff {k : κ} :
    k ∈ (visit key next scope [] start).map key ↔ ∃ n, At key next start n k := by
  rw [List.mem_map]
  constructor
  · intro h
    obtain ⟨a, ha, rfl⟩ := h
    obtain ⟨n, _, hpath, _⟩ := level_zero.path_of_mem_visit hs a ha
    exact ⟨n, a, hpath, rfl⟩
  · intro h
    obtain ⟨n, hat⟩ := h
    exact (level_zero.exists_mem_visit hs n k (Nat.zero_le n) hat).resolve_left nofun

theorem exists_path_of_mem_visit {a : α} (h : a ∈ visit key next scope [] start) :
    ∃ n, Path next start n a := by
  obtain ⟨n, _, hpath, _⟩ := level_zero.path_of_mem_visit hs a h
  exact ⟨n, hpath⟩

end Wiring.BreadthFirst
