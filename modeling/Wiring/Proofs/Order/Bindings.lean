import Mathlib.Data.List.Induction
import Wiring.Proofs.Order.SortedMap

/-!
# Maps that are written to

A map is an ascending list of bindings. A binding is written in its place; a key that is there already
stays and gets another value. Where a map is told by the list of its keys and a function that gives
each key its value, so is the map after something is written.
-/

namespace Wiring

theorem find?_eq_some_of_forall {α : Type} {p : α → Bool} {a : α} {as : List α} (ha : a ∈ as)
    (hp : p a = true) (h : ∀ b ∈ as, p b = true → b = a) : as.find? p = some a := by
  cases hfind : as.find? p with
  | none => exact absurd hp (List.find?_eq_none.1 hfind a ha)
  | some b => rw [h b (List.mem_of_find?_eq_some hfind) (List.find?_some hfind)]

namespace Ascending

variable {α β κ : Type} {cmp : α → α → Ordering} {a b : α} {as bs : List α}

/-! ## Keys -/

/-- Puts an element in its place, unless one that is equal to it is there. -/
def insertNew (cmp : α → α → Ordering) (a : α) : List α → List α
  | [] => [a]
  | b :: bs =>
    match cmp a b with
    | .lt => a :: b :: bs
    | .eq => b :: bs
    | .gt => b :: insertNew cmp a bs

theorem insertNew_of_ne (h : ∀ b ∈ as, cmp a b ≠ .eq) : insertNew cmp a as = insert cmp a as := by
  induction as with
  | nil => rfl
  | cons b bs ih =>
    obtain ⟨hb, hbs⟩ := List.forall_mem_cons.1 h
    cases hab : cmp a b with
    | eq => exact absurd hab hb
    | lt => simp only [insertNew, insert, hab]
    | gt => simp only [insertNew, insert, hab, ih hbs]

theorem insertNew_of_forall_lt [Std.TransCmp cmp] (h : ∀ b ∈ as, cmp b a = .lt) :
    insertNew cmp a as = as ++ [a] := by
  induction as with
  | nil => rfl
  | cons b bs ih =>
    obtain ⟨hb, hbs⟩ := List.forall_mem_cons.1 h
    simp only [insertNew, Std.OrientedCmp.gt_of_lt hb, ih hbs, List.cons_append]

section

variable [Std.TransCmp cmp] (has : IsAscending cmp as)

include has

theorem insertNew_of_eq (h : ∃ b ∈ as, cmp a b = .eq) : insertNew cmp a as = as := by
  induction as with
  | nil =>
    obtain ⟨b, hb, -⟩ := h
    cases hb
  | cons c cs ih =>
    obtain ⟨hfirst, hrest⟩ := List.pairwise_cons.1 has
    obtain ⟨b, hb, hab⟩ := h
    cases hac : cmp a c with
    | lt =>
      -- what comes behind a later element is later still
      have hlt : cmp a b = .lt := by
        rcases List.mem_cons.1 hb with rfl | hb
        · exact hac
        · exact Std.TransCmp.lt_trans hac (hfirst b hb)
      rw [hab] at hlt
      cases hlt
    | eq => simp only [insertNew, hac]
    | gt =>
      have hbcs : b ∈ cs := by
        rcases List.mem_cons.1 hb with rfl | hb
        · rw [hab] at hac
          cases hac
        · exact hb
      simp only [insertNew, hac, ih hrest ⟨b, hbcs, hab⟩]

theorem mem_insertNew_iff :
    b ∈ insertNew cmp a as ↔ b ∈ as ∨ b = a ∧ ∀ c ∈ as, cmp a c ≠ .eq := by
  by_cases h : ∃ c ∈ as, cmp a c = .eq
  · obtain ⟨c, hc, hac⟩ := h
    rw [insertNew_of_eq has ⟨c, hc, hac⟩]
    exact ⟨.inl, fun h => h.resolve_right fun hnew => hnew.2 c hc hac⟩
  · have hne : ∀ c ∈ as, cmp a c ≠ .eq := fun c hc hac => h ⟨c, hc, hac⟩
    rw [insertNew_of_ne hne, has.mem_insert_iff]
    constructor
    · rintro (hb | ⟨hb, -⟩)
      · exact .inr ⟨hb, hne⟩
      · exact .inl hb
    · rintro (hb | ⟨hb, -⟩)
      · exact .inr ⟨hb, hne b hb⟩
      · exact .inl hb

theorem isAscending_insertNew : IsAscending cmp (insertNew cmp a as) := by
  by_cases h : ∃ c ∈ as, cmp a c = .eq
  · rwa [insertNew_of_eq has h]
  · rw [insertNew_of_ne fun c hc hac => h ⟨c, hc, hac⟩]
    exact isAscending_insert has

/-- It makes no difference whether an element is put in place before or after one that gives way to
it. -/
theorem insert_insertNew : insert cmp b (insertNew cmp a as) = insertNew cmp a (insert cmp b as) := by
  have hb : IsAscending cmp (insert cmp b as) := isAscending_insert has
  have ha : IsAscending cmp (insertNew cmp a as) := isAscending_insertNew has
  refine (isAscending_insert ha).eq_of_mem_iff (isAscending_insertNew hb) fun c => ?_
  rw [ha.mem_insert_iff, mem_insertNew_iff has, mem_insertNew_iff hb, has.mem_insert_iff]
  constructor
  · rintro (rfl | ⟨hc | ⟨rfl, hnew⟩, hbc⟩)
    · exact .inl (.inl rfl)
    · exact .inl (.inr ⟨hc, hbc⟩)
    · refine .inr ⟨rfl, fun d hd hcd => ?_⟩
      rcases has.mem_insert_iff.1 hd with rfl | ⟨hd, -⟩
      · exact hbc (Std.OrientedCmp.eq_symm hcd)
      · exact hnew d hd hcd
  · rintro ((rfl | ⟨hc, hbc⟩) | ⟨rfl, hnew⟩)
    · exact .inl rfl
    · exact .inr ⟨.inl hc, hbc⟩
    · have hcb : cmp c b ≠ .eq := hnew b (mem_insert_self b as)
      refine .inr ⟨.inr ⟨rfl, fun d hd hcd => ?_⟩, fun hbc => hcb (Std.OrientedCmp.eq_symm hbc)⟩
      by_cases hbd : cmp b d = .eq
      · exact hcb (Std.TransCmp.eq_trans hcd (Std.OrientedCmp.eq_symm hbd))
      · exact hnew d (mem_insert_of_mem hd hbd) hcd

end

/-- One more element at the end of a list comes too late where it is equal to one before it. -/
theorem ofList_concat [Std.TransCmp cmp] (as : List α) (a : α) :
    ofList cmp (as ++ [a]) = insertNew cmp a (ofList cmp as) := by
  induction as with
  | nil => rfl
  | cons b bs ih =>
    show insert cmp b (ofList cmp (bs ++ [a])) = insertNew cmp a (insert cmp b (ofList cmp bs))
    rw [ih, insert_insertNew (isAscending_ofList bs)]

theorem ofList_append [Std.TransCmp cmp] (as bs : List α) :
    ofList cmp (as ++ bs) = bs.foldl (fun cs b => insertNew cmp b cs) (ofList cmp as) := by
  induction bs generalizing as with
  | nil => rw [List.append_nil, List.foldl_nil]
  | cons b bs ih => rw [List.append_cons, ih, List.foldl_cons, ofList_concat]

theorem ofList_of_isAscending [Std.TransCmp cmp] (has : IsAscending cmp as) : ofList cmp as = as :=
  (isAscending_ofList as).eq_of_mem_iff has fun _ =>
    mem_ofList_iff fun _ ha _ hb => has.eq_of_compare_eq ha hb

/-- Elements that are there already may be left out. -/
theorem foldl_insertNew_filter [Std.TransCmp cmp] {p : α → Bool} (has : IsAscending cmp as)
    (h : ∀ b ∈ bs, p b = false → ∃ c ∈ as, cmp b c = .eq) :
    (bs.filter p).foldl (fun cs b => insertNew cmp b cs) as =
      bs.foldl (fun cs b => insertNew cmp b cs) as := by
  induction bs generalizing as with
  | nil => rfl
  | cons b bs ih =>
    obtain ⟨hb, hbs⟩ := List.forall_mem_cons.1 h
    cases hp : p b with
    | false =>
      rw [List.filter_cons_of_neg (by simp [hp]), List.foldl_cons, insertNew_of_eq has (hb hp)]
      exact ih has hbs
    | true =>
      rw [List.filter_cons_of_pos hp, List.foldl_cons, List.foldl_cons]
      refine ih (isAscending_insertNew has) fun b' hb' hp' => ?_
      obtain ⟨c, hc, hbc⟩ := hbs b' hb' hp'
      exact ⟨c, (mem_insertNew_iff has).2 (.inl hc), hbc⟩

/-! ## Bindings -/

section

variable {cmp : κ → κ → Ordering} {key : κ} {keys : List κ} {f : Option β → β} {v w : κ → β}

/-- Binds a key to what `f` makes of its value, if it has one. -/
def update (cmp : κ → κ → Ordering) (key : κ) (f : Option β → β) : List (κ × β) → List (κ × β)
  | [] => [(key, f none)]
  | (k, value) :: rest =>
    match cmp key k with
    | .lt => (key, f none) :: (k, value) :: rest
    | .eq => (k, f (some value)) :: rest
    | .gt => (k, value) :: update cmp key f rest

/-- The value of a key. -/
def value? (cmp : κ → κ → Ordering) (key : κ) (bindings : List (κ × β)) : Option β :=
  (bindings.find? fun b => cmp key b.1 == .eq).map (·.2)

/-- The map in which each of these keys has the value that `v` gives it. -/
def tabulate (keys : List κ) (v : κ → β) : List (κ × β) := keys.map fun k => (k, v k)

theorem map_fst_tabulate : (tabulate keys v).map (·.1) = keys := by
  simp [tabulate, Function.comp_def]

/-- **What is written** changes the value of one key, or adds it to the keys. -/
theorem update_tabulate [Std.TransCmp cmp] (hkeys : IsAscending cmp keys)
    (hnew : (∀ k ∈ keys, cmp key k ≠ .eq) → f none = w key)
    (hthere : ∀ k ∈ keys, cmp key k = .eq → f (some (v k)) = w k)
    (hother : ∀ k ∈ keys, cmp key k ≠ .eq → v k = w k) :
    update cmp key f (tabulate keys v) = tabulate (insertNew cmp key keys) w := by
  induction keys with
  | nil => simp [update, tabulate, insertNew, hnew]
  | cons k ks ih =>
    obtain ⟨hfirst, hrest⟩ := List.pairwise_cons.1 hkeys
    obtain ⟨hk, hks⟩ := List.forall_mem_cons.1 hother
    have hall : (∀ k' ∈ ks, cmp key k' ≠ .eq) → tabulate ks v = tabulate ks w := fun h =>
      List.map_congr_left fun k' hk' => by rw [hks k' hk' (h k' hk')]
    cases hcmp : cmp key k with
    | lt =>
      have hne : ∀ k' ∈ ks, cmp key k' ≠ .eq := by
        intro k' hk' heq
        have hlt : cmp key k' = .lt := Std.TransCmp.lt_trans hcmp (hfirst k' hk')
        rw [heq] at hlt
        cases hlt
      have hvalue : f none = w key := hnew (List.forall_mem_cons.2 ⟨by simp [hcmp], hne⟩)
      show update cmp key f ((k, v k) :: tabulate ks v) = _
      simp only [update, insertNew, hcmp, hall hne, hvalue, hk (by simp [hcmp])]
      rfl
    | eq =>
      have hne : ∀ k' ∈ ks, cmp key k' ≠ .eq := by
        intro k' hk' heq
        have hlt : cmp key k' = .lt := Std.TransCmp.lt_of_eq_of_lt hcmp (hfirst k' hk')
        rw [heq] at hlt
        cases hlt
      have hvalue : f (some (v k)) = w k := hthere k List.mem_cons_self hcmp
      show update cmp key f ((k, v k) :: tabulate ks v) = _
      simp only [update, insertNew, hcmp, hall hne, hvalue]
      rfl
    | gt =>
      have hlater : update cmp key f (tabulate ks v) = tabulate (insertNew cmp key ks) w := by
        refine ih hrest (fun hne => ?_) (fun k' hk' => hthere k' (List.mem_cons_of_mem _ hk')) hks
        exact hnew (List.forall_mem_cons.2 ⟨by simp [hcmp], hne⟩)
      show update cmp key f ((k, v k) :: tabulate ks v) = _
      simp only [update, insertNew, hcmp, hlater, hk (by simp [hcmp])]
      rfl

/-- A map that is written key by key. -/
theorem foldl_update_const [Std.TransCmp cmp] (hkeys : IsAscending cmp keys) (w : κ → β) :
    keys.foldl (fun m k => update cmp k (fun _ => w k) m) [] = tabulate keys w := by
  induction keys using List.reverseRecOn with
  | nil => rfl
  | append_singleton ks k ih =>
    obtain ⟨hks, -, hlast⟩ := List.pairwise_append.1 hkeys
    have hlt : ∀ k' ∈ ks, cmp k' k = .lt := fun k' hk' => hlast k' hk' k (List.mem_singleton_self k)
    have hne : ∀ k' ∈ ks, cmp k k' ≠ .eq := by
      intro k' hk' heq
      rw [Std.OrientedCmp.gt_of_lt (hlt k' hk')] at heq
      cases heq
    rw [List.foldl_append, ih hks, List.foldl_cons, List.foldl_nil,
      update_tabulate hks (fun _ => rfl) (fun k' hk' heq => absurd heq (hne k' hk'))
        (fun _ _ _ => rfl),
      insertNew_of_forall_lt hlt]

/-- The value of a key with one more element behind it. -/
def push (a : α) (group : Option (List α)) : List α := group.getD [] ++ [a]

/-- **Grouping**: elements that are pushed one by one lie under their keys in the order in which they
came. -/
theorem foldl_push [Std.TransCmp cmp] (keyOf : α → κ) (as : List α) :
    as.foldl (fun m a => update cmp (keyOf a) (push a) m) [] =
      tabulate (ofList cmp (as.map keyOf)) fun k => as.filter fun a => cmp (keyOf a) k == .eq := by
  induction as using List.reverseRecOn with
  | nil => rfl
  | append_singleton as a ih =>
    rw [List.foldl_append, ih, List.foldl_cons, List.foldl_nil, List.map_append, List.map_singleton,
      ofList_concat]
    refine update_tabulate (isAscending_ofList _) (fun hnew => ?_) (fun k _ hk => ?_) fun k _ hk => ?_
    · -- nothing that came before has a key in this place
      have hnone : as.filter (fun b => cmp (keyOf b) (keyOf a) == .eq) = [] := by
        refine List.filter_eq_nil_iff.2 fun b hb heq => ?_
        obtain ⟨k, hk, hbk⟩ : ∃ k ∈ ofList cmp (as.map keyOf), cmp (keyOf b) k = .eq :=
          exists_mem_ofList (List.mem_map_of_mem hb)
        have hab : cmp (keyOf a) (keyOf b) = .eq := Std.OrientedCmp.eq_symm (by simpa using heq)
        exact hnew k hk (Std.TransCmp.eq_trans hab hbk)
      have hself : cmp (keyOf a) (keyOf a) = .eq := Std.ReflCmp.compare_self
      simp [push, List.filter_append, hnone, hself]
    · simp [push, List.filter_append, hk]
    · simp [List.filter_append, hk]

theorem value?_tabulate [Std.TransCmp cmp] (hkeys : IsAscending cmp keys) (h : key ∈ keys) :
    value? cmp key (tabulate keys v) = some (v key) := by
  have hself : cmp key key = .eq := Std.ReflCmp.compare_self
  have hfind : keys.find? (fun k => cmp key k == .eq) = some key :=
    find?_eq_some_of_forall h (beq_iff_eq.2 hself) fun k hk heq =>
      (hkeys.eq_of_compare_eq h hk (beq_iff_eq.1 heq)).symm
  rw [value?, tabulate, List.find?_map, Option.map_map]
  show (keys.find? (fun k => cmp key k == .eq)).map v = _
  rw [hfind]
  rfl

theorem isSome_value?_tabulate_iff :
    (value? cmp key (tabulate keys v)).isSome = true ↔ ∃ k ∈ keys, cmp key k = .eq := by
  simp [value?, tabulate]

theorem value?_tabulate_of_not_mem [Std.LawfulEqCmp cmp] (h : key ∉ keys) :
    value? cmp key (tabulate keys v) = none := by
  rw [← Option.not_isSome_iff_eq_none, isSome_value?_tabulate_iff]
  rintro ⟨k, hk, heq⟩
  rw [Std.LawfulEqCmp.eq_of_compare heq] at h
  exact h hk

end

end Ascending

end Wiring
