import Mathlib.Data.List.Forall2
import Wiring.Proofs.Parameters.Table

/-!
# Tables of reordered requests

The table of a permuted list of requests has the same keys and the same groups, up to the order of
the requests in each group, and it gives rise to as many warnings.
-/

namespace Wiring

variable {requests requests' : List Request}

/-- Two groups that differ at most in the order of their requests. -/
structure RepresentationGroup.Reordered (r r' : RepresentationGroup) : Prop where
  key_eq : r.key = r'.key
  required_eq : r.required = r'.required
  perm : r.requests.Perm r'.requests

theorem RepresentationGroup.Reordered.nullable_eq {r r' : RepresentationGroup}
    (h : r.Reordered r') : r.nullable = r'.nullable := by
  unfold RepresentationGroup.nullable
  rw [h.key_eq, h.required_eq, h.perm.isEmpty_eq, h.perm.all_eq]

/-- One warning at most, for which the order of the requests does not matter. -/
theorem RepresentationGroup.Reordered.length_warnings_eq {r r' : RepresentationGroup}
    (h : r.Reordered r') : r.warnings.length = r'.warnings.length := by
  unfold RepresentationGroup.warnings
  rw [h.nullable_eq, h.required_eq]
  split <;> rfl

/-- Which request demands a value matters for the texts of the warnings, not for their number. -/
theorem ParameterGroup.length_warnings (group : ParameterGroup) :
    group.warnings.length =
      if group.requests.any (·.required) then group.requests.countP (!·.required)
      else if group.requests.any (!·.nullable) then group.requests.countP (·.nullable)
      else 0 := by
  unfold ParameterGroup.warnings
  rw [← List.isSome_find?, ← List.isSome_find?]
  split
  · next demanding hdemanding => simp [hdemanding, List.countP_eq_length_filter]
  · next refusing hnone hrefusing => simp [hnone, hrefusing, List.countP_eq_length_filter]
  · next hnone hnone' => simp [hnone, hnone']

theorem ParameterGroup.length_warnings_perm {name : String} (h : requests.Perm requests') :
    (ParameterGroup.mk name requests).warnings.length =
      (ParameterGroup.mk name requests').warnings.length := by
  rw [ParameterGroup.length_warnings, ParameterGroup.length_warnings]
  rw [h.any_eq, h.any_eq, h.countP_eq, h.countP_eq]

namespace ParameterTable

theorem AllParsed.perm (hparsed : AllParsed requests) (h : requests.Perm requests') :
    AllParsed requests' :=
  fun r hr => hparsed r (h.mem_iff.2 hr)

/-! ## Keys -/

theorem names_perm (h : requests.Perm requests') : names requests = names requests' :=
  Ascending.ofList_eq_of_mem_iff (fun _ _ _ _ => Std.LawfulEqCmp.eq_of_compare)
    fun _ => (h.map _).mem_iff

theorem requestedKeys_perm (hparsed : AllParsed requests) (h : requests.Perm requests') :
    requestedKeys requests = requestedKeys requests' := by
  refine Ascending.ofList_eq_of_mem_iff ?_ fun _ => (h.map _).mem_iff
  intro a ha b hb
  obtain ⟨r, hr, rfl⟩ := List.mem_map.1 ha
  obtain ⟨r', hr', rfl⟩ := List.mem_map.1 hb
  exact Representation.eq_of_compare_eq (hparsed r hr) (hparsed r' hr')

theorem keys_perm {d : Domain} (hparsed : AllParsed requests) (h : requests.Perm requests') :
    keys d requests = keys d requests' := by
  unfold keys
  rw [requestedKeys_perm hparsed h]

/-! ## Groups -/

theorem parameterGroup_perm (h : requests.Perm requests') (name : String) :
    (parameterGroup requests name).requests.Perm (parameterGroup requests' name).requests :=
  h.filter _

theorem reordered_representationGroup (h : requests.Perm requests') (key : Representation) :
    (representationGroup requests key).Reordered (representationGroup requests' key) where
  key_eq := rfl
  required_eq := (parameterGroup_perm h key.name).any_eq
  perm := h.filter _

/-- **The representations of a table do not depend on the order of the requests.** -/
theorem forall₂_representations {d : Domain} (hparsed : AllParsed requests)
    (h : requests.Perm requests') :
    List.Forall₂ RepresentationGroup.Reordered (build d requests).representations
      (build d requests').representations := by
  show List.Forall₂ _ ((keys d requests).map _) ((keys d requests').map _)
  rw [keys_perm hparsed h, List.forall₂_map_left_iff, List.forall₂_map_right_iff,
    List.forall₂_same]
  exact fun key _ => reordered_representationGroup h key

/-- **The number of warnings does not depend on the order of the requests.** -/
theorem length_warnings_perm (hparsed : AllParsed requests) (h : requests.Perm requests') :
    (warnings requests).length = (warnings requests').length := by
  unfold warnings
  rw [List.length_append, List.length_append, List.length_flatMap, List.length_flatMap,
    List.length_flatMap, List.length_flatMap, names_perm h, requestedKeys_perm hparsed h]
  congr 2
  · exact List.map_congr_left fun name _ =>
      ParameterGroup.length_warnings_perm (parameterGroup_perm h name)
  · exact List.map_congr_left fun key _ =>
      (reordered_representationGroup h key).length_warnings_eq

end ParameterTable

end Wiring
