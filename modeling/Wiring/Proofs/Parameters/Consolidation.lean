import Wiring.Proofs.Parameters.Maps

/-!
# What a table holds

A table that is filled accounts for every request, once under its name and once under its
representation, and beyond these it only holds the representations that the others are derived
from. One round is enough to find these: what a lookup yields is what a lookup of its own type
yields.
-/

namespace Wiring

/-- A lookup of the type that a lookup yields, yields it as it is. -/
theorem Domain.sourceType_sourceType (d : Domain) (target : TypeRef) :
    d.sourceType (d.sourceType target) = d.sourceType target := by
  unfold Domain.sourceType
  cases d.multiValued <;> cases target.isNamed TypeRef.listName <;> rfl

namespace ParameterTable

variable {d : Domain} {requests : List Request}

theorem sibling_sibling (d : Domain) (key : Representation) :
    sibling d (sibling d key) = sibling d key :=
  congrArg key.withType (d.sourceType_sourceType key.type)

/-- The sibling of a key is in the table, unless somebody asks in its place for a type that no text
denotes. -/
theorem sibling_mem_keys_or {key : Representation} (h : key ∈ keys d requests) :
    sibling d key ∈ keys d requests ∨
      ∃ r ∈ requests, r.name = key.name ∧ r.default = key.default ∧
        r.site.providedType.text = (d.sourceType key.type).text ∧
        ¬r.site.providedType.IsParsed := by
  have hsibling : sibling d key ∈
      requestedKeys requests ++ (requestedKeys requests).map (sibling d) := by
    refine List.mem_append_right _ ?_
    rcases List.mem_append.1 (Ascending.mem_of_mem_ofList h) with hkey | hkey
    · exact List.mem_map_of_mem hkey
    · obtain ⟨requested, hrequested, rfl⟩ := List.mem_map.1 hkey
      rw [sibling_sibling]
      exact hkey
  -- of representations with the same place in the order, the table holds one
  obtain ⟨k, hk, hsame⟩ : ∃ k ∈ keys d requests, (sibling d key).compare k = .eq :=
    Ascending.exists_mem_ofList hsibling
  by_cases hparsed : k.type.IsParsed
  · left
    rwa [Representation.eq_of_compare_eq (isParsed_sourceType d key.type) hparsed hsame]
  · right
    rcases List.mem_append.1 (Ascending.mem_of_mem_ofList hk) with hrequested | hderived
    · obtain ⟨r, hr, rfl⟩ := List.mem_map.1 (Ascending.mem_of_mem_ofList hrequested)
      obtain ⟨hname, hdefault, htext⟩ :=
        Representation.same_iff.1 (show (sibling d key).same r.representation = true by
          rw [Representation.same, hsame]; rfl)
      exact ⟨r, hr, hname.symm, hdefault.symm, htext.symm, hparsed⟩
    · obtain ⟨requested, -, rfl⟩ := List.mem_map.1 hderived
      exact absurd (isParsed_sourceType d requested.type) hparsed

theorem sibling_mem_keys (hparsed : AllParsed requests) {key : Representation}
    (h : key ∈ keys d requests) : sibling d key ∈ keys d requests := by
  rcases sibling_mem_keys_or h with hsibling | ⟨r, hr, -, -, -, hno⟩
  · exact hsibling
  · exact absurd (hparsed r hr) hno

/-! ## The maps of a table -/

namespace Maps

variable {t : Maps}

/-- The names that the maps hold. -/
def names (t : Maps) : List String := t.policies.map (·.1)

/-- The representations that the maps hold. -/
def keys (t : Maps) : List Representation := t.representations.map (·.1)

theorem names_ofTable (d : Domain) (requests : List Request) :
    (ofTable (build d requests)).names = ParameterTable.names requests := by
  rw [ofTable_build]
  exact Ascending.map_fst_tabulate

theorem keys_ofTable (d : Domain) (requests : List Request) :
    (ofTable (build d requests)).keys = ParameterTable.keys d requests := by
  rw [ofTable_build]
  exact Ascending.map_fst_tabulate

theorem map_fst_requestsByName_ofTable :
    (ofTable (build d requests)).requestsByName.map (·.1) = ParameterTable.names requests := by
  rw [ofTable_build]
  exact Ascending.map_fst_tabulate

theorem map_fst_requestsByKey_ofTable :
    (ofTable (build d requests)).requestsByKey.map (·.1) = ParameterTable.keys d requests := by
  rw [ofTable_build]
  exact Ascending.map_fst_tabulate

end Maps

open Ascending (IsAscending) in
/-- What the maps of a table hold of the requests that it is filled with. -/
structure Consolidates (d : Domain) (requests : List Request) (t : Maps) : Prop where
  /-- The two maps by name are in step, and so are the two by representation. -/
  requestsByName_names : t.requestsByName.map (·.1) = t.names
  requestsByKey_keys : t.requestsByKey.map (·.1) = t.keys
  names_ascending : IsAscending compare t.names
  /-- The names are those that are asked for. -/
  mem_names_iff : ∀ name, name ∈ t.names ↔ ∃ r ∈ requests, r.name = name
  keys_ascending : IsAscending Representation.compare t.keys
  /-- The representations are those that are asked for and, for each of them, the one at the type
  that a lookup for it yields. -/
  mem_keys_iff : ∀ key, key ∈ t.keys ↔
    ∃ r ∈ requests, r.representation = key ∨
      r.representation.withType (d.sourceType r.representation.type) = key
  /-- Under a name lie the requests for it, in the order in which they came, and there are some. -/
  requestsFor_eq : ∀ name, t.requestsFor name = requests.filter (·.name == name)
  requestsFor_ne_nil : ∀ name ∈ t.names, t.requestsFor name ≠ []
  /-- Under a representation lie the requests for it, in the order in which they came; there are none
  exactly if nobody asks for it. -/
  requestsOf_eq : ∀ key ∈ t.keys, t.requestsOf key = requests.filter (·.representation == key)
  requestsOf_eq_nil_iff : ∀ key ∈ t.keys,
    (t.requestsOf key = [] ↔ ∀ r ∈ requests, r.representation ≠ key)
  /-- One request that demands a value makes a parameter required, one that refuses null keeps it
  from accepting null. -/
  parameter?_eq : ∀ name ∈ t.names, t.parameter? name =
    some ⟨(t.requestsFor name).any (·.required), (t.requestsFor name).all (·.nullable)⟩
  /-- A representation accepts null if its requests do; one that nobody asks for, if its parameter is
  not required and it has no default. -/
  representation?_eq : ∀ key ∈ t.keys, t.representation? key = some
    (if t.requestsOf key = [] then !(t.requestsFor key.name).any (·.required) && key.default.isNone
      else (t.requestsOf key).all (·.nullable))
  /-- Every representation has a policy under its name, so that a pass never takes another one for
  it. -/
  name_mem_names : ∀ key ∈ t.keys, key.name ∈ t.names
  /-- The representation that another one is derived from is there as well. -/
  closed : ∀ key ∈ t.keys, key.withType (d.sourceType key.type) ∈ t.keys

/-- Under a representation lie the requests for it. -/
theorem requestsOf_eq_filter (hparsed : AllParsed requests) {key : Representation}
    (hkey : key ∈ keys d requests) :
    (Maps.ofTable (build d requests)).requestsOf key =
      requests.filter (·.representation == key) := by
  rw [Maps.requestsOf_ofTable hkey]
  exact requests_representationGroup hparsed (isParsed_of_mem_keys hparsed hkey)

theorem consolidates_ofTable (d : Domain) (hparsed : AllParsed requests) :
    Consolidates d requests (Maps.ofTable (build d requests)) where
  requestsByName_names := by
    rw [Maps.map_fst_requestsByName_ofTable, Maps.names_ofTable]
  requestsByKey_keys := by
    rw [Maps.map_fst_requestsByKey_ofTable, Maps.keys_ofTable]
  names_ascending := by
    rw [Maps.names_ofTable]
    exact isAscending_names
  mem_names_iff name := by
    rw [Maps.names_ofTable, mem_names_iff]
  keys_ascending := by
    rw [Maps.keys_ofTable]
    exact isAscending_keys
  mem_keys_iff key := by
    rw [Maps.keys_ofTable, mem_keys_iff hparsed]
    rfl
  requestsFor_eq := Maps.requestsFor_ofTable d requests
  requestsFor_ne_nil name hname := by
    rw [Maps.names_ofTable] at hname
    obtain ⟨r, hr, hrname⟩ := mem_names_iff.1 hname
    rw [Maps.requestsFor_ofTable]
    exact List.ne_nil_of_mem (mem_parameterGroup_iff.2 ⟨hr, hrname⟩)
  requestsOf_eq key hkey := by
    rw [Maps.keys_ofTable] at hkey
    exact requestsOf_eq_filter hparsed hkey
  requestsOf_eq_nil_iff key hkey := by
    rw [Maps.keys_ofTable] at hkey
    rw [requestsOf_eq_filter hparsed hkey, List.filter_eq_nil_iff]
    simp
  parameter?_eq name hname := by
    rw [Maps.names_ofTable] at hname
    rw [Maps.parameter?_ofTable hname, Maps.requestsFor_ofTable]
    rfl
  representation?_eq key hkey := by
    rw [Maps.keys_ofTable] at hkey
    rw [Maps.representation?_ofTable hkey, Maps.requestsOf_ofTable hkey, Maps.requestsFor_ofTable,
      RepresentationGroup.nullable]
    simp only [List.isEmpty_iff]
    rfl
  name_mem_names key hkey := by
    rw [Maps.keys_ofTable] at hkey
    rw [Maps.names_ofTable]
    exact name_mem_names hkey
  closed key hkey := by
    rw [Maps.keys_ofTable] at hkey ⊢
    exact sibling_mem_keys hparsed hkey

/-- **A table accounts for every request**: filling it comes to the groups of its requests and the
warnings about them, its maps are closed under the representations that others are derived from, and
a pass reads from them each of the groups with the policy of its parameter. -/
theorem consolidates_fill (d : Domain) (hparsed : AllParsed requests) (reported : List Diagnostic) :
    let (t, diagnostics) := Maps.fill d requests reported
    t = Maps.ofTable (build d requests) ∧ diagnostics = reported ++ warnings requests ∧
      Consolidates d requests t ∧
      t.entries = (build d requests).representations.map fun g =>
        ⟨g.key, g.nullable, ⟨g.required, (t.requestsFor g.key.name).all (·.nullable)⟩,
          g.requests⟩ := by
  rw [Maps.fill_eq]
  refine ⟨rfl, rfl, consolidates_ofTable d hparsed, ?_⟩
  rw [Maps.entries_ofTable]
  simp only [Maps.requestsFor_ofTable]
  rfl

/-- A domain of several values. -/
def optionDomain : Domain where
  name := "cli"
  qualifier := "OptionParameter"
  methodTag := "Cli"
  multiValued := true

/-- A request without a default. -/
def optionRequest (name : String) (type : TypeRef) : Request :=
  .ofSite { (default : Site) with providedType := type } name

/-- Two lists that are derived from the same lookup, and a number beside its lookup. -/
def optionRequests : List Request :=
  [ optionRequest "ids" (.listOf (.declared "java.lang.Long" [])),
    optionRequest "port" (.primitive .int),
    optionRequest "ids" (.listOf (.declared "java.lang.Integer" [])),
    optionRequest "port" .string,
    optionRequest "port" (.primitive .int) ]

theorem allParsed_optionRequests : AllParsed optionRequests := by
  have hlist (name : String) (h : TypeRef.IsClassName name) :
      (TypeRef.listOf (.declared name [])).IsParsed :=
    TypeRef.isParsed_listOf (TypeRef.isParsed_iff.2 ⟨h, trivial⟩)
  intro r hr
  simp only [optionRequests, List.mem_cons, List.not_mem_nil, or_false] at hr
  rcases hr with rfl | rfl | rfl | rfl | rfl
  · exact hlist "java.lang.Long" (by decide)
  · exact TypeRef.isParsed_iff.2 trivial
  · exact hlist "java.lang.Integer" (by decide)
  · exact TypeRef.isParsed_string
  · exact TypeRef.isParsed_iff.2 trivial

theorem consolidates_example :
    AllParsed optionRequests ∧
      Consolidates optionDomain optionRequests (Maps.fill optionDomain optionRequests []).1 ∧
      (Maps.fill optionDomain optionRequests []).1.entries.map
          (fun e => (e.key.type.text, e.key.name, e.requests.length)) =
        [ ("java.util.List<java.lang.Integer>", "ids", 1),
          ("java.util.List<java.lang.Long>", "ids", 1),
          ("java.util.List<java.lang.String>", "ids", 0),
          ("int", "port", 2),
          ("java.lang.String", "port", 1) ] :=
  ⟨allParsed_optionRequests, (consolidates_fill optionDomain allParsed_optionRequests []).2.2.1,
    by decide +kernel⟩

end ParameterTable

end Wiring
