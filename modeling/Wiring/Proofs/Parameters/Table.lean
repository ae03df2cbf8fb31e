import Wiring.Parameters.Table
import Wiring.Proofs.Order.Ascending
import Wiring.Proofs.Parameters.Representation

/-!
# The groups of a parameter table

What the requests of a group say about requiredness and null. Both are settled by name first: a
request that demands a value makes every representation of its name required, and where none does,
a request without a default accepts null. Where all types can be parsed, the keys of a table are the
representations that are asked for and their siblings.
-/

namespace Wiring

namespace ParameterTable

variable {requests : List Request} {key : Representation}

theorem mem_parameterGroup_iff {name : String} {r : Request} :
    r ∈ (parameterGroup requests name).requests ↔ r ∈ requests ∧ r.name = name := by
  simp [parameterGroup]

theorem mem_representationGroup_iff {r : Request} :
    r ∈ (representationGroup requests key).requests ↔
      r ∈ requests ∧ r.representation.same key = true := by
  simp [representationGroup]

/-- A representation is required exactly if some request of its name demands a value. -/
theorem required_representationGroup_iff :
    (representationGroup requests key).required = true ↔
      ∃ r ∈ requests, r.name = key.name ∧ r.required = true := by
  simp only [representationGroup, ParameterGroup.required, List.any_eq_true,
    mem_parameterGroup_iff, and_assoc]

/-- Where no request demands a value, those without a default accept null. -/
theorem nullable_representationGroup (hrequired : (representationGroup requests key).required = false)
    (hdefault : key.default = none) : (representationGroup requests key).nullable = true := by
  unfold RepresentationGroup.nullable
  split
  · rw [hrequired]
    simp [representationGroup, hdefault]
  · rw [List.all_eq_true]
    intro r hr
    obtain ⟨hmem, hsame⟩ := mem_representationGroup_iff.1 hr
    obtain ⟨hname, hdef, _⟩ := Representation.same_iff.1 hsame
    -- a request that refuses null would demand a value, for want of a default
    cases hnull : r.nullable with
    | true => rfl
    | false =>
      have hdemands : r.required = true := by
        have : r.default = none := hdef.trans hdefault
        simp [Request.required, hnull, this]
      rw [required_representationGroup_iff.2 ⟨r, hmem, hname, hdemands⟩] at hrequired
      cases hrequired

/-! ## Keys -/

theorem mem_names_iff {name : String} : name ∈ names requests ↔ ∃ r ∈ requests, r.name = name := by
  have hmem : name ∈ names requests ↔ name ∈ requests.map (·.name) :=
    Ascending.mem_ofList_iff fun _ _ _ _ => Std.LawfulEqCmp.eq_of_compare
  rw [hmem, List.mem_map]

theorem requests_parameterGroup_of_not_mem {name : String} (h : name ∉ names requests) :
    (parameterGroup requests name).requests = [] := by
  refine List.eq_nil_iff_forall_not_mem.2 fun r hr => h ?_
  obtain ⟨hr, hname⟩ := mem_parameterGroup_iff.1 hr
  exact mem_names_iff.2 ⟨r, hr, hname⟩

/-- Every type that is asked for can be parsed. -/
def AllParsed (requests : List Request) : Prop :=
  ∀ r ∈ requests, r.representation.type.IsParsed

theorem isParsed_sourceType (d : Domain) (target : TypeRef) : (d.sourceType target).IsParsed := by
  unfold Domain.sourceType
  split
  · exact TypeRef.isParsed_listOf TypeRef.isParsed_string
  · exact TypeRef.isParsed_string

variable {d : Domain}

theorem isParsed_of_mem_requestedKeys (h : AllParsed requests) (hkey : key ∈ requestedKeys requests) :
    key.type.IsParsed := by
  obtain ⟨r, hr, rfl⟩ := List.mem_map.1 (Ascending.mem_of_mem_ofList hkey)
  exact h r hr

theorem isParsed_of_mem_keys (h : AllParsed requests) (hkey : key ∈ keys d requests) :
    key.type.IsParsed := by
  rcases List.mem_append.1 (Ascending.mem_of_mem_ofList hkey) with hkey | hkey
  · exact isParsed_of_mem_requestedKeys h hkey
  · obtain ⟨requested, _, rfl⟩ := List.mem_map.1 hkey
    exact isParsed_sourceType d requested.type

theorem mem_requestedKeys_iff (h : AllParsed requests) :
    key ∈ requestedKeys requests ↔ ∃ r ∈ requests, r.representation = key := by
  unfold requestedKeys
  rw [Ascending.mem_ofList_iff, List.mem_map]
  simp only [List.mem_map]
  rintro _ ⟨r, hr, rfl⟩ _ ⟨r', hr', rfl⟩ heq
  exact Representation.eq_of_compare_eq (h r hr) (h r' hr') heq

/-- **The keys of a table** are the representations that are asked for and their siblings. -/
theorem mem_keys_iff (h : AllParsed requests) :
    key ∈ keys d requests ↔
      ∃ r ∈ requests, r.representation = key ∨ sibling d r.representation = key := by
  have hparsed : ∀ k ∈ requestedKeys requests ++ (requestedKeys requests).map (sibling d),
      k.type.IsParsed := by
    intro k hk
    rcases List.mem_append.1 hk with hk | hk
    · exact isParsed_of_mem_requestedKeys h hk
    · obtain ⟨requested, _, rfl⟩ := List.mem_map.1 hk
      exact isParsed_sourceType d requested.type
  have hmem : key ∈ keys d requests ↔
      key ∈ requestedKeys requests ++ (requestedKeys requests).map (sibling d) :=
    Ascending.mem_ofList_iff fun a ha b hb =>
      Representation.eq_of_compare_eq (hparsed a ha) (hparsed b hb)
  rw [hmem, List.mem_append, List.mem_map, mem_requestedKeys_iff h]
  constructor
  · rintro (⟨r, hr, hkey⟩ | ⟨requested, hrequested, hkey⟩)
    · exact ⟨r, hr, .inl hkey⟩
    · obtain ⟨r, hr, rfl⟩ := (mem_requestedKeys_iff h).1 hrequested
      exact ⟨r, hr, .inr hkey⟩
  · rintro ⟨r, hr, hkey | hkey⟩
    · exact .inl ⟨r, hr, hkey⟩
    · exact .inr ⟨_, (mem_requestedKeys_iff h).2 ⟨r, hr, rfl⟩, hkey⟩

/-- The name of a key is one that is asked for. -/
theorem name_mem_names {key : Representation} (h : key ∈ keys d requests) :
    key.name ∈ names requests := by
  have hrequested : ∀ k ∈ requestedKeys requests, k.name ∈ names requests := by
    intro k hk
    obtain ⟨r, hr, rfl⟩ := List.mem_map.1 (Ascending.mem_of_mem_ofList hk)
    exact mem_names_iff.2 ⟨r, hr, rfl⟩
  rcases List.mem_append.1 (Ascending.mem_of_mem_ofList h) with hkey | hkey
  · exact hrequested key hkey
  · obtain ⟨requested, hmem, rfl⟩ := List.mem_map.1 hkey
    exact hrequested requested hmem

theorem map_key_representations :
    (build d requests).representations.map (·.key) = keys d requests := by
  simp [build, representationGroup, Function.comp_def]

theorem isAscending_names : Ascending.IsAscending compare (names requests) :=
  Ascending.isAscending_ofList _

theorem isAscending_requestedKeys :
    Ascending.IsAscending Representation.compare (requestedKeys requests) :=
  Ascending.isAscending_ofList _

theorem isAscending_keys : Ascending.IsAscending Representation.compare (keys d requests) :=
  Ascending.isAscending_ofList _

/-- No key has two groups. -/
theorem nodup_keys : (keys d requests).Nodup := isAscending_keys.nodup

/-- The requests of a group are those for its very representation. -/
theorem requests_representationGroup (h : AllParsed requests) (hkey : key.type.IsParsed) :
    (representationGroup requests key).requests = requests.filter (·.representation == key) := by
  refine List.filter_congr fun r hr => ?_
  rw [Bool.eq_iff_iff, Representation.same_iff_eq (h r hr) hkey, beq_iff_eq]

end ParameterTable

end Wiring
