import Mathlib.Data.List.Perm.Basic
import Wiring.Proofs.Order.Keys
import Wiring.Proofs.Parameters.Consolidation

/-!
# Warnings about requests

Requests of one name may disagree on whether a value must be there. A table warns of each request that
the others outvote: one that demands nothing where another one demands a value, and one that accepts
null where no value is demanded but another one refuses null. It also warns of each representation
that accepts null by itself while its name does not.
-/

namespace Wiring.ParameterTable

variable {requests : List Request} {r : Request} {name : String} {key : Representation}
  {w : Diagnostic}

/-- Some request of this name demands a value. -/
def IsDemanded (requests : List Request) (name : String) : Prop :=
  ∃ r ∈ requests, r.name = name ∧ r.required = true

/-- The request demands nothing, but another one of its name demands a value. -/
def IsIgnored (requests : List Request) (r : Request) : Prop :=
  r.required = false ∧ IsDemanded requests r.name

/-- The request accepts null and another one of its name does not, but none demands a value. -/
def IsMixed (requests : List Request) (r : Request) : Prop :=
  r.nullable = true ∧ ¬IsDemanded requests r.name ∧
    ∃ x ∈ requests, x.name = r.name ∧ x.nullable = false

/-- All requests for the representation accept null, but one of its name demands a value. -/
def IsNeverNull (requests : List Request) (key : Representation) : Prop :=
  (∀ r ∈ requests, r.representation.same key = true → r.nullable = true) ∧
    IsDemanded requests key.name

instance : DecidablePred (IsDemanded requests) := fun _ => inferInstanceAs (Decidable (∃ _ ∈ _, _))

instance : DecidablePred (IsIgnored requests) := fun _ => inferInstanceAs (Decidable (_ ∧ _))

instance : DecidablePred (IsMixed requests) := fun _ => inferInstanceAs (Decidable (_ ∧ _ ∧ _))

instance : DecidablePred (IsNeverNull requests) := fun _ => inferInstanceAs (Decidable (_ ∧ _))

/-- The warning to a request, which refers to the first request that outvotes it. -/
inductive Warns (requests : List Request) (r : Request) : Diagnostic → Prop
  | ignored {demanding : Request} (h : IsIgnored requests r)
    (hfirst : requests.find? (fun x => x.name == r.name && x.required) = some demanding) :
    Warns requests r (ParameterGroup.ignoredWarning demanding r)
  | mixed {refusing : Request} (h : IsMixed requests r)
    (hfirst : requests.find? (fun x => x.name == r.name && !x.nullable) = some refusing) :
    Warns requests r (ParameterGroup.mixedWarning refusing r)

/-- The warning about a representation, which refers to the first request for it. -/
inductive WarnsOf (requests : List Request) (key : Representation) : Diagnostic → Prop
  | neverNull {r : Request} (h : IsNeverNull requests key)
    (hfirst : requests.find? (·.representation.same key) = some r) :
    WarnsOf requests key
      ⟨.warning, "Representation " ++ key.text ++ " is nullable but parameter '" ++ key.name ++
        "' is effectively required; it will never be null", some r.element⟩

/-- The requests of this name agree on whether a value must be there. -/
def IsAgreed (requests : List Request) (name : String) : Prop :=
  (∀ r ∈ requests, r.name = name → r.required = true) ∨
    (∀ r ∈ requests, r.name = name → r.required = false) ∧
      ((∀ r ∈ requests, r.name = name → r.nullable = true) ∨
        ∀ r ∈ requests, r.name = name → r.nullable = false)

/-- What a table warns of. -/
structure WarnsExactly (requests : List Request) (ds : List Diagnostic) : Prop where
  severity : ∀ w ∈ ds, w.severity = .warning
  /-- There is one warning to each request that is outvoted, and one about each representation that
  will never be null, but no other one. -/
  perm : ∃ ws vs, ds.Perm (ws ++ vs) ∧
    List.Forall₂ (Warns requests)
      (requests.filter fun r => IsIgnored requests r ∨ IsMixed requests r) ws ∧
    List.Forall₂ (WarnsOf requests) ((requestedKeys requests).filter (IsNeverNull requests)) vs
  silent_iff : ds = [] ↔ ∀ name, IsAgreed requests name

theorem not_isDemanded_iff :
    ¬IsDemanded requests name ↔ ∀ r ∈ requests, r.name = name → r.required = false := by
  simp [IsDemanded]

/-- A request that demands a value does not accept null. -/
theorem required_eq_false_of_nullable (h : r.nullable = true) : r.required = false := by
  simp [Request.required, h]

/-! ## The warnings to the requests of a name -/

/-- What is made of the elements that are kept, one by one. -/
theorem forall₂_filter_map {α β : Type} {R : α → β → Prop} {p q : α → Bool} {f : α → β} {as : List α}
    (hpq : ∀ a ∈ as, p a = q a) (hR : ∀ a ∈ as, q a = true → R a (f a)) :
    List.Forall₂ R (as.filter p) ((as.filter q).map f) := by
  rw [List.filter_congr hpq, List.forall₂_map_right_iff, List.forall₂_same]
  intro a ha
  obtain ⟨ha, hq⟩ := List.mem_filter.1 ha
  exact hR a ha hq

theorem find?_parameterGroup (p : Request → Bool) :
    (parameterGroup requests name).requests.find? p =
      requests.find? fun x => x.name == name && p x := by
  rw [parameterGroup, List.find?_filter]
  simp only [Bool.decide_and, Bool.decide_eq_true]

theorem of_find?_eq_some {p : Request → Bool}
    (h : requests.find? (fun x => x.name == name && p x) = some r) :
    r ∈ requests ∧ r.name = name ∧ p r = true := by
  have hp := List.find?_some h
  rw [Bool.and_eq_true, beq_iff_eq] at hp
  exact ⟨List.mem_of_find?_eq_some h, hp⟩

theorem of_find?_eq_none {p : Request → Bool}
    (h : requests.find? (fun x => x.name == name && p x) = none) :
    ∀ r ∈ requests, r.name = name → p r = false := by
  intro r hr hname
  simpa [hname] using List.find?_eq_none.1 h r hr

/-- Each request of a name that is outvoted has its warning. -/
theorem forall₂_warns (requests : List Request) (name : String) :
    List.Forall₂ (Warns requests)
      ((requests.filter (·.name == name)).filter fun r => IsIgnored requests r ∨ IsMixed requests r)
      (parameterGroup requests name).warnings := by
  have hname : ∀ r ∈ requests.filter (·.name == name), r.name = name := fun r hr =>
    beq_iff_eq.1 (List.mem_filter.1 hr).2
  unfold ParameterGroup.warnings
  rw [find?_parameterGroup, find?_parameterGroup]
  split
  · next demanding hfirst =>
    have hdemanded : IsDemanded requests name := ⟨demanding, of_find?_eq_some hfirst⟩
    refine forall₂_filter_map (fun r hr => ?_) (fun r hr hrequired => ?_)
    · obtain rfl := hname r hr
      simp [IsIgnored, IsMixed, hdemanded]
    · obtain rfl := hname r hr
      exact .ignored ⟨by simpa using hrequired, hdemanded⟩ hfirst
  · next refusing hnone hfirst =>
    have hdemanded : ¬IsDemanded requests name := not_isDemanded_iff.2 (of_find?_eq_none hnone)
    have hrefused : ∃ x ∈ requests, x.name = name ∧ x.nullable = false := by
      obtain ⟨hmem, hname, hrefuses⟩ := of_find?_eq_some hfirst
      exact ⟨refusing, hmem, hname, by simpa using hrefuses⟩
    refine forall₂_filter_map (fun r hr => ?_) (fun r hr hnullable => ?_)
    · obtain rfl := hname r hr
      simp [IsIgnored, IsMixed, hdemanded, hrefused]
    · obtain rfl := hname r hr
      exact .mixed ⟨hnullable, hdemanded, hrefused⟩ hfirst
  · next hnone hnone' =>
    have hdemanded : ¬IsDemanded requests name := not_isDemanded_iff.2 (of_find?_eq_none hnone)
    have hnullable : ∀ x ∈ requests, x.name = name → x.nullable = true := by
      simpa using of_find?_eq_none hnone'
    rw [List.filter_eq_nil_iff.2]
    · exact .nil
    · intro r hr
      obtain rfl := hname r hr
      simpa [IsIgnored, IsMixed, hdemanded] using fun _ => hnullable

/-! ## The warnings about representations -/

theorem isNeverNull_iff (h : key ∈ requestedKeys requests) :
    IsNeverNull requests key ↔
      ((representationGroup requests key).nullable &&
        (representationGroup requests key).required) = true := by
  obtain ⟨r, hr, rfl⟩ : ∃ r ∈ requests, r.representation = key :=
    List.mem_map.1 (Ascending.mem_of_mem_ofList h)
  have hself : r.representation.same r.representation = true :=
    Representation.same_iff.2 ⟨rfl, rfl, rfl⟩
  have hgroup : (representationGroup requests r.representation).requests ≠ [] :=
    List.ne_nil_of_mem (mem_representationGroup_iff.2 ⟨hr, hself⟩)
  rw [Bool.and_eq_true, required_representationGroup_iff, RepresentationGroup.nullable,
    if_neg (by simpa using hgroup), List.all_eq_true]
  simp only [mem_representationGroup_iff, and_imp]
  rfl

/-- A representation that will never be null has its warning. -/
theorem forall₂_warnsOf (h : key ∈ requestedKeys requests) :
    List.Forall₂ (WarnsOf requests) ([key].filter (IsNeverNull requests))
      (representationGroup requests key).warnings := by
  by_cases hnever : IsNeverNull requests key
  · have helement : (representationGroup requests key).element? =
        (requests.find? (·.representation.same key)).map (·.element) := by
      rw [RepresentationGroup.element?, representationGroup, List.head?_filter]
    obtain ⟨r, hr, rfl⟩ : ∃ r ∈ requests, r.representation = key :=
      List.mem_map.1 (Ascending.mem_of_mem_ofList h)
    obtain ⟨first, hfirst⟩ : ∃ first,
        requests.find? (·.representation.same r.representation) = some first :=
      Option.isSome_iff_exists.1 <| List.find?_isSome.2
        ⟨r, hr, Representation.same_iff.2 ⟨rfl, rfl, rfl⟩⟩
    rw [List.filter_cons_of_pos (by simpa using hnever), List.filter_nil,
      RepresentationGroup.warnings, if_pos ((isNeverNull_iff h).1 hnever), helement, hfirst]
    exact .cons (.neverNull hnever hfirst) .nil
  · rw [List.filter_cons_of_neg (by simpa using hnever), List.filter_nil,
      RepresentationGroup.warnings, if_neg fun hboth => hnever ((isNeverNull_iff h).2 hboth)]
    exact .nil

/-! ## All warnings -/

/-- What is related part by part, is related as a whole. -/
theorem forall₂_flatMap {α β γ : Type} {R : β → γ → Prop} {f : α → List β} {f' : α → List γ}
    {as : List α} (h : ∀ a ∈ as, List.Forall₂ R (f a) (f' a)) :
    List.Forall₂ R (as.flatMap f) (as.flatMap f') := by
  induction as with
  | nil => exact .nil
  | cons a as ih =>
    obtain ⟨ha, has⟩ := List.forall_mem_cons.1 h
    exact List.rel_append ha (ih has)

/-- Name by name, these are all requests. -/
theorem perm_flatMap_names (requests : List Request) :
    ((names requests).flatMap fun name => requests.filter (·.name == name)).Perm requests := by
  have hall : requests.filter (fun r => (names requests).contains r.name) = requests :=
    List.filter_eq_self.2 fun r hr => List.contains_iff_mem.2 (mem_names_iff.2 ⟨r, hr, rfl⟩)
  have hnodup : (names requests).Nodup := (Ascending.isAscending_ofList _).nodup
  have hperm := perm_flatMap_filter Request.name requests hnodup
  rwa [hall] at hperm

/-- **A table warns of every request that is outvoted**, and of every representation that will never
be null. -/
theorem exists_perm_warnings (requests : List Request) :
    ∃ ws vs, (warnings requests).Perm (ws ++ vs) ∧
      List.Forall₂ (Warns requests)
        (requests.filter fun r => IsIgnored requests r ∨ IsMixed requests r) ws ∧
      List.Forall₂ (WarnsOf requests)
        ((requestedKeys requests).filter (IsNeverNull requests)) vs := by
  have hwarns := forall₂_flatMap fun name (_ : name ∈ names requests) => forall₂_warns requests name
  rw [← List.filter_flatMap] at hwarns
  obtain ⟨ws, hws, hperm⟩ :=
    List.perm_comp_forall₂ ((perm_flatMap_names requests).filter _).symm hwarns
  have hof := forall₂_flatMap fun key (h : key ∈ requestedKeys requests) => forall₂_warnsOf h
  rw [← List.filter_flatMap, List.flatMap_singleton'] at hof
  exact ⟨ws, _, hperm.symm.append_right _, hws, hof⟩

/-- Nobody is outvoted exactly if the requests of every name agree. -/
theorem forall_not_outvoted_iff :
    (∀ r ∈ requests, ¬(IsIgnored requests r ∨ IsMixed requests r)) ↔
      ∀ name, IsAgreed requests name := by
  constructor
  · intro h name
    by_cases hdemanded : IsDemanded requests name
    · refine .inl fun r hr hname => ?_
      by_contra hrequired
      refine h r hr (.inl ⟨?_, ?_⟩)
      · simpa using hrequired
      · rwa [hname]
    · refine .inr ⟨not_isDemanded_iff.1 hdemanded, ?_⟩
      by_cases hrefused : ∃ x ∈ requests, x.name = name ∧ x.nullable = false
      · refine .inr fun r hr hname => ?_
        by_contra hnullable
        refine h r hr (.inr ⟨?_, ?_, ?_⟩)
        · simpa using hnullable
        · rwa [hname]
        · rwa [hname]
      · exact .inl (by simpa using hrefused)
  · rintro h r hr (⟨hrequired, hdemanded⟩ | ⟨hnullable, hdemanded, x, hx, hname, hrefuses⟩)
    · obtain ⟨x, hx, hname, hdemands⟩ := hdemanded
      rcases h r.name with hall | ⟨hnone, -⟩
      · rw [hall r hr rfl] at hrequired
        cases hrequired
      · rw [hnone x hx hname] at hdemands
        cases hdemands
    · rcases h r.name with hall | ⟨-, hall | hall⟩
      · exact hdemanded ⟨r, hr, rfl, hall r hr rfl⟩
      · rw [hall x hx hname] at hrefuses
        cases hrefuses
      · rw [hall r hr rfl] at hnullable
        cases hnullable

/-- A request for a representation that will never be null is outvoted. -/
theorem isIgnored_of_isNeverNull (h : IsNeverNull requests r.representation) (hr : r ∈ requests) :
    IsIgnored requests r := by
  obtain ⟨hnullable, hdemanded⟩ := h
  have hr : r.nullable = true := hnullable r hr (Representation.same_iff.2 ⟨rfl, rfl, rfl⟩)
  exact ⟨required_eq_false_of_nullable hr, hdemanded⟩

/-- **A table is silent exactly if the requests of every name agree.** -/
theorem warnings_eq_nil_iff : warnings requests = [] ↔ ∀ name, IsAgreed requests name := by
  obtain ⟨ws, vs, hperm, hws, hvs⟩ := exists_perm_warnings requests
  rw [← forall_not_outvoted_iff]
  constructor
  · intro hnil
    have hws' : ws = [] := (List.append_eq_nil_iff.1 (hnil ▸ hperm).nil_eq.symm).1
    rw [hws', List.forall₂_nil_right_iff, List.filter_eq_nil_iff] at hws
    simpa using hws
  · intro h
    have hfilter : requests.filter (fun r => IsIgnored requests r ∨ IsMixed requests r) = [] :=
      List.filter_eq_nil_iff.2 (by simpa using h)
    have hkeys : (requestedKeys requests).filter (IsNeverNull requests) = [] := by
      refine List.filter_eq_nil_iff.2 fun key hkey hnever => ?_
      obtain ⟨r, hr, rfl⟩ : ∃ r ∈ requests, r.representation = key :=
        List.mem_map.1 (Ascending.mem_of_mem_ofList hkey)
      exact h r hr (.inl (isIgnored_of_isNeverNull (by simpa using hnever) hr))
    rw [hfilter, List.forall₂_nil_left_iff] at hws
    rw [hkeys, List.forall₂_nil_left_iff] at hvs
    rw [hws, hvs] at hperm
    exact hperm.eq_nil

end Wiring.ParameterTable
