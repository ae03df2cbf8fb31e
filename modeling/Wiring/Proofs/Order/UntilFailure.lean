import Mathlib.Data.List.Forall2
import Wiring.Order.UntilFailure
import Wiring.Proofs.Except

/-!
# Runs without a failure

Where nothing fails, the results of a fallible function along a list are those of its elements.
Where something does, the failure is that of the first element without a result.
-/

namespace Wiring

variable {α β γ ε : Type} {f : α → Except ε β}

theorem exists_of_mem_untilFailure {as : List α} {b : β} (h : b ∈ (untilFailure f as).1) :
    ∃ a ∈ as, f a = .ok b := by
  induction as with
  | nil => cases h
  | cons a as ih =>
    rw [untilFailure] at h
    cases ha : f a with
    | error e =>
      rw [ha] at h
      cases h
    | ok b' =>
      rw [ha] at h
      rcases List.mem_cons.1 h with rfl | h
      · exact ⟨a, List.mem_cons_self, ha⟩
      · obtain ⟨a', ha', hb⟩ := ih h
        exact ⟨a', List.mem_cons_of_mem _ ha', hb⟩

/-- Everything has its result, in order. -/
theorem mapM_eq_ok_iff {as : List α} {bs : List β} :
    as.mapM f = .ok bs ↔ List.Forall₂ (fun a b => f a = .ok b) as bs := by
  induction as generalizing bs with
  | nil =>
    rw [List.mapM_nil, List.forall₂_nil_left_iff]
    exact ⟨fun h => (Except.ok.inj h).symm, fun h => congrArg _ h.symm⟩
  | cons a as ih =>
    rw [List.mapM_cons, bind_eq_ok_iff, List.forall₂_cons_left_iff]
    simp only [bind_eq_ok_iff, ih]
    constructor
    · rintro ⟨b, hb, bs', hbs', h⟩
      exact ⟨b, bs', hb, hbs', (Except.ok.inj h).symm⟩
    · rintro ⟨b, bs', hb, hbs', rfl⟩
      exact ⟨b, hb, bs', hbs', rfl⟩

/-- The results of a list are those of its elements. -/
theorem mem_iff_of_forall₂ {as : List α} {bs : List β}
    (h : List.Forall₂ (fun a b => f a = .ok b) as bs) {b : β} : b ∈ bs ↔ ∃ a ∈ as, f a = .ok b := by
  induction h with
  | nil => simp
  | cons ha _ ih => simp [ih, ha, eq_comm (a := b)]

theorem exists_ok_of_forall₂ {as : List α} {bs : List β}
    (h : List.Forall₂ (fun a b => f a = .ok b) as bs) : ∀ a ∈ as, ∃ b, f a = .ok b := by
  induction h with
  | nil => exact List.forall_mem_nil _
  | cons ha _ ih => exact List.forall_mem_cons.2 ⟨⟨_, ha⟩, ih⟩

theorem untilFailure_snd_eq_none_iff {as : List α} :
    (untilFailure f as).2 = none ↔ ∀ a ∈ as, ∃ b, f a = .ok b := by
  induction as with
  | nil => simp [untilFailure]
  | cons a as ih =>
    rw [untilFailure, List.forall_mem_cons]
    cases ha : f a with
    | error e => simp
    | ok b => simpa using ih

/-- What is picked out of the results is picked out of each by itself. -/
theorem filterMap_untilFailure (pick : β → Option γ) {as : List α}
    (h : (untilFailure f as).2 = none) :
    (untilFailure f as).1.filterMap pick = as.filterMap fun a => (f a).toOption.bind pick := by
  induction as with
  | nil => rfl
  | cons a as ih =>
    rw [untilFailure] at h ⊢
    cases ha : f a with
    | error e => simp [ha] at h
    | ok b =>
      simp only [ha] at h ⊢
      simp [List.filterMap_cons, ih h, ha, Except.toOption]

/-- What each result has in common with its element, they have in common up to the failure. -/
theorem map_untilFailure_prefix {g : β → γ} {key : α → γ} (hkey : ∀ a b, f a = .ok b → g b = key a)
    (as : List α) : (untilFailure f as).1.map g <+: as.map key := by
  induction as with
  | nil => exact List.prefix_rfl
  | cons a as ih =>
    rw [untilFailure]
    cases ha : f a with
    | error e => exact List.nil_prefix
    | ok b =>
      rw [List.map_cons, List.map_cons, hkey a b ha]
      exact (List.prefix_cons_inj _).2 ih

/-- What each result has in common with its element, the lists have in common. -/
theorem map_untilFailure {g : β → γ} {key : α → γ} (hkey : ∀ a b, f a = .ok b → g b = key a)
    {as : List α} (h : (untilFailure f as).2 = none) :
    (untilFailure f as).1.map g = as.map key := by
  induction as with
  | nil => rfl
  | cons a as ih =>
    rw [untilFailure] at h ⊢
    cases ha : f a with
    | error e => simp [ha] at h
    | ok b =>
      simp only [ha] at h ⊢
      rw [List.map_cons, List.map_cons, ih h, hkey a b ha]

/-! ## The first failure -/

theorem untilFailure_cons_of_ok {a : α} {b : β} (h : f a = .ok b) (as : List α) :
    untilFailure f (a :: as) = (b :: (untilFailure f as).1, (untilFailure f as).2) := by
  rw [untilFailure, h]

theorem untilFailure_cons_of_error {a : α} {e : ε} (h : f a = .error e) (as : List α) :
    untilFailure f (a :: as) = ([], some e) := by
  rw [untilFailure, h]

/-- Results up to some place, and how it goes on from there. -/
theorem untilFailure_append {before : List α} {bs : List β}
    (h : List.Forall₂ (fun a b => f a = .ok b) before bs) (as : List α) :
    untilFailure f (before ++ as) = (bs ++ (untilFailure f as).1, (untilFailure f as).2) := by
  induction h with
  | nil => rfl
  | cons ha _ ih => rw [List.cons_append, untilFailure_cons_of_ok ha, ih, List.cons_append]

/-- Without a failure everything has its result, in order. -/
theorem untilFailure_eq_iff {as : List α} {bs : List β} :
    untilFailure f as = (bs, none) ↔ List.Forall₂ (fun a b => f a = .ok b) as bs := by
  constructor
  · intro h
    rw [← mapM_eq_ok_iff, untilFailure_eq_none_iff.1 (congrArg Prod.snd h), h]
  · intro h
    simpa [untilFailure] using untilFailure_append h []

/-- **The failure is the first one**: everything before it has its result. -/
theorem untilFailure_eq_some_iff {as : List α} {bs : List β} {e : ε} :
    untilFailure f as = (bs, some e) ↔
      ∃ before a after, as = before ++ a :: after ∧
        List.Forall₂ (fun a b => f a = .ok b) before bs ∧ f a = .error e := by
  constructor
  · intro h
    induction as generalizing bs with
    | nil => cases h
    | cons a as ih =>
      cases ha : f a with
      | error e' =>
        rw [untilFailure_cons_of_error ha] at h
        cases h
        exact ⟨[], a, as, rfl, .nil, ha⟩
      | ok b =>
        rw [untilFailure_cons_of_ok ha] at h
        obtain ⟨rfl, hfailure⟩ := Prod.mk.inj h
        obtain ⟨before, x, after, rfl, hbefore, hx⟩ := ih (Prod.ext rfl hfailure)
        exact ⟨a :: before, x, after, rfl, .cons ha hbefore, hx⟩
  · rintro ⟨before, a, after, rfl, hbefore, ha⟩
    rw [untilFailure_append hbefore, untilFailure_cons_of_error ha, List.append_nil]

theorem exists_of_untilFailure_eq_some {as : List α} {e : ε} (h : (untilFailure f as).2 = some e) :
    ∃ a ∈ as, f a = .error e := by
  obtain ⟨before, a, after, rfl, -, ha⟩ := untilFailure_eq_some_iff.1 (Prod.ext rfl h)
  exact ⟨a, List.mem_append_right _ List.mem_cons_self, ha⟩

/-- The failure is that of the first element that has no result. -/
theorem exists_find?_of_untilFailure_eq_some {p : α → Bool} {as : List α} {e : ε}
    (hp : ∀ a, p a = false ↔ ∃ b, f a = .ok b) (h : (untilFailure f as).2 = some e) :
    ∃ a, as.find? p = some a ∧ f a = .error e := by
  obtain ⟨before, a, after, rfl, hbefore, ha⟩ := untilFailure_eq_some_iff.1 (Prod.ext rfl h)
  have hpbefore : ∀ x ∈ before, p x = false := fun x hx =>
    (hp x).2 (exists_ok_of_forall₂ hbefore x hx)
  have hpa : p a = true := by
    rw [← Bool.not_eq_false, hp, ha]
    rintro ⟨b, hb⟩
    cases hb
  refine ⟨a, List.find?_eq_some_iff_append.2 ⟨hpa, before, after, rfl, ?_⟩, ha⟩
  simpa using hpbefore

theorem mapM_eq_error {before : List α} {bs : List β} {a : α} {e : ε}
    (hbefore : List.Forall₂ (fun a b => f a = .ok b) before bs) (ha : f a = .error e)
    (after : List α) : (before ++ a :: after).mapM f = .error e := by
  rw [List.mapM_append, mapM_eq_ok_iff.2 hbefore, List.mapM_cons, ha]
  rfl

/-- The error is that of the first element that has no result. -/
theorem mapM_eq_error_iff {as : List α} {e : ε} :
    as.mapM f = .error e ↔
      ∃ before a after bs, as = before ++ a :: after ∧
        List.Forall₂ (fun a b => f a = .ok b) before bs ∧ f a = .error e := by
  constructor
  · intro h
    rcases hrun : untilFailure f as with ⟨bs, _ | e'⟩
    · rw [untilFailure_eq_none_iff.1 (congrArg Prod.snd hrun)] at h
      cases h
    · obtain ⟨before, a, after, rfl, hbefore, ha⟩ := untilFailure_eq_some_iff.1 hrun
      rw [mapM_eq_error hbefore ha] at h
      cases h
      exact ⟨before, a, after, bs, rfl, hbefore, ha⟩
  · rintro ⟨before, a, after, bs, rfl, hbefore, ha⟩
    exact mapM_eq_error hbefore ha after

theorem exists_of_mapM_eq_error {as : List α} {e : ε} (h : as.mapM f = .error e) :
    ∃ a ∈ as, f a = .error e := by
  obtain ⟨before, a, after, _, rfl, _, ha⟩ := mapM_eq_error_iff.1 h
  exact ⟨a, List.mem_append_right _ List.mem_cons_self, ha⟩

end Wiring
