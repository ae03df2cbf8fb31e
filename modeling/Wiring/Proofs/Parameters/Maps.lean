import Wiring.Proofs.Order.Bindings
import Wiring.Proofs.Parameters.Table

/-!
# Tables as they are filled

A table is filled in four maps, two by name and two by representation. Requests are entered one by
one. Two passes over what was entered sum it up, and warn where it does not agree. A last one looks for
the representations that others are derived from and nobody asked for, and adds them. What comes of it
are the groups of a table, and the warnings about the requests.
-/

namespace Wiring.ParameterTable

open Ascending (update value? push tabulate insertNew)

variable {d : Domain} {requests : List Request} {key : Representation} {name : String}

/-- What a parameter demands and what it accepts. -/
structure Policy where
  required : Bool
  nullable : Bool
deriving DecidableEq, Repr

/-- The maps that a table is filled in, each in the order of its keys. -/
structure Maps where
  requestsByName : List (String × List Request) := []
  policies : List (String × Policy) := []
  requestsByKey : List (Representation × List Request) := []
  /-- The representations, and whether they accept null. -/
  representations : List (Representation × Bool) := []
deriving DecidableEq, Repr

namespace Maps

/-! ## Steps -/

/-- Enters a request under its representation and under its name. -/
def enter (t : Maps) (r : Request) : Maps :=
  { t with
    requestsByKey := update Representation.compare r.representation (push r) t.requestsByKey
    requestsByName := update compare r.name (push r) t.requestsByName }

def parameter? (t : Maps) (name : String) : Option Policy := value? compare name t.policies

def representation? (t : Maps) (key : Representation) : Option Bool :=
  value? Representation.compare key t.representations

def requestsFor (t : Maps) (name : String) : List Request :=
  (value? compare name t.requestsByName).getD []

def requestsOf (t : Maps) (key : Representation) : List Request :=
  (value? Representation.compare key t.requestsByKey).getD []

/-- Whether the parameter is known to demand a value. -/
def isRequired (t : Maps) (name : String) : Bool := (t.parameter? name).any (·.required)

/-- The policy that the first request to demand a value and the first one to refuse null make. -/
def policyOf (requests : List Request) : Policy where
  required := (requests.find? (·.required)).isSome
  nullable := (requests.find? (!·.nullable)).isNone

/-- Sums up the requests of a name. -/
def sumUpParameter (state : Maps × List Diagnostic) (entry : String × List Request) :
    Maps × List Diagnostic :=
  let (t, reported) := state
  let (name, requests) := entry
  ({ t with policies := update compare name (fun _ => policyOf requests) t.policies },
    reported ++ ParameterGroup.warnings ⟨name, requests⟩)

/-- The warning about a representation that accepts null by itself. -/
def neverNullWarning (key : Representation) (requests : List Request) : Diagnostic :=
  ⟨.warning, "Representation " ++ key.text ++ " is nullable but parameter '" ++ key.name ++
    "' is effectively required; it will never be null", requests.head?.map (·.element)⟩

/-- Sums up the requests for a representation. -/
def sumUpRepresentation (state : Maps × List Diagnostic) (entry : Representation × List Request) :
    Maps × List Diagnostic :=
  let (t, reported) := state
  let (key, requests) := entry
  let nullable := requests.all (·.nullable)
  ({ t with
      representations := update Representation.compare key (fun _ => nullable) t.representations },
    reported ++ if nullable && t.isRequired key.name then [neverNullWarning key requests] else [])

/-- The representations that others are derived from, so far as they are not there. Several of them
may be missing more than once. -/
def missing (d : Domain) (t : Maps) : List Representation :=
  t.representations.filterMap fun (key, _) =>
    let source := d.sourceType key.type
    if key.type = source then none
    else if (t.representation? (key.withType source)).isNone then some (key.withType source)
    else none

/-- Adds a representation that nobody asked for. -/
def synthesize (t : Maps) (key : Representation) : Maps :=
  if (t.representation? key).isSome then t
  else
    { t with
      requestsByKey := update Representation.compare key (fun _ => []) t.requestsByKey
      representations := update Representation.compare key
        (fun _ => !t.isRequired key.name && key.default.isNone) t.representations }

/-- Fills a table, with what was reported so far. -/
def fill (d : Domain) (requests : List Request) (reported : List Diagnostic) :
    Maps × List Diagnostic :=
  let t := requests.foldl enter {}
  let (t, reported) := t.requestsByName.foldl sumUpParameter (t, reported)
  let (t, reported) := t.requestsByKey.foldl sumUpRepresentation (t, reported)
  ((t.missing d).foldl synthesize t, reported)

/-- A representation as a pass reads it. -/
structure Entry where
  key : Representation
  nullable : Bool
  parameter : Policy
  requests : List Request
deriving DecidableEq, Repr

/-- What a pass takes for the policy of a parameter that is not there. -/
def fallback : Policy := ⟨false, true⟩

def entries (t : Maps) : List Entry :=
  t.representations.map fun (key, nullable) =>
    ⟨key, nullable, (t.parameter? key.name).getD fallback, t.requestsOf key⟩

/-! ## The maps of a table -/

/-- The policies of all names that are asked for. -/
def policiesOf (requests : List Request) : List (String × Policy) :=
  tabulate (names requests) fun name =>
    ⟨(parameterGroup requests name).required, (parameterGroup requests name).nullable⟩

/-- The maps of a table with these representations. -/
def holding (requests : List Request) (ks : List Representation) : Maps where
  requestsByName := tabulate (names requests) fun name => (parameterGroup requests name).requests
  policies := policiesOf requests
  requestsByKey := tabulate ks fun key => (representationGroup requests key).requests
  representations := tabulate ks fun key => (representationGroup requests key).nullable

/-- The maps that hold what a table holds. -/
def ofTable (t : ParameterTable) : Maps where
  requestsByName := t.parameters.map fun g => (g.name, g.requests)
  policies := t.parameters.map fun g => (g.name, ⟨g.required, g.nullable⟩)
  requestsByKey := t.representations.map fun g => (g.key, g.requests)
  representations := t.representations.map fun g => (g.key, g.nullable)

theorem ofTable_build : ofTable (build d requests) = holding requests (keys d requests) := by
  simp only [ofTable, build, List.map_map]
  rfl

/-! ## Entering requests -/

theorem foldl_enter (requests : List Request) (t : Maps) :
    requests.foldl enter t =
      { t with
        requestsByKey := requests.foldl
          (fun m r => update Representation.compare r.representation (push r) m) t.requestsByKey
        requestsByName := requests.foldl
          (fun m r => update compare r.name (push r) m) t.requestsByName } := by
  induction requests generalizing t with
  | nil => rfl
  | cons r rs ih => rw [List.foldl_cons, ih, enter, List.foldl_cons, List.foldl_cons]

/-- The maps that hold the requests and nothing else. -/
def entered (requests : List Request) : Maps where
  requestsByName := tabulate (names requests) fun name => (parameterGroup requests name).requests
  requestsByKey :=
    tabulate (requestedKeys requests) fun key => (representationGroup requests key).requests

/-- **Every request that is entered** lies under its name and under its representation, behind those
that were entered before it. -/
theorem foldl_enter_empty (requests : List Request) : requests.foldl enter {} = entered requests := by
  have hname : ∀ (r : Request) (name : String), (compare r.name name == .eq) = (r.name == name) := by
    intro r name
    rw [Bool.eq_iff_iff, beq_iff_eq, beq_iff_eq, Std.LawfulEqCmp.compare_eq_iff_eq]
  rw [foldl_enter, Ascending.foldl_push, Ascending.foldl_push]
  simp only [hname]
  rfl

/-! ## Summing up -/

theorem foldl_sumUpParameter (groups : List (String × List Request)) (t : Maps)
    (reported : List Diagnostic) :
    groups.foldl sumUpParameter (t, reported) =
      ({ t with
          policies := groups.foldl (fun m g => update compare g.1 (fun _ => policyOf g.2) m)
            t.policies },
        reported ++ groups.flatMap fun g => ParameterGroup.warnings ⟨g.1, g.2⟩) := by
  induction groups generalizing t reported with
  | nil => simp
  | cons g gs ih =>
    rw [List.foldl_cons, sumUpParameter, ih, List.foldl_cons, List.flatMap_cons, List.append_assoc]

theorem policyOf_eq (g : ParameterGroup) : policyOf g.requests = ⟨g.required, g.nullable⟩ := by
  have hrequired : (g.requests.find? (·.required)).isSome = g.required := by
    rw [Bool.eq_iff_iff, List.find?_isSome, ParameterGroup.required, List.any_eq_true]
  have hnullable : (g.requests.find? (!·.nullable)).isNone = g.nullable := by
    rw [Bool.eq_iff_iff, Option.isNone_iff_eq_none, List.find?_eq_none, ParameterGroup.nullable,
      List.all_eq_true]
    simp
  rw [policyOf, hrequired, hnullable]

theorem foldl_sumUpRepresentation (groups : List (Representation × List Request)) (t : Maps)
    (reported : List Diagnostic) :
    groups.foldl sumUpRepresentation (t, reported) =
      ({ t with
          representations := groups.foldl
            (fun m g => update Representation.compare g.1 (fun _ => g.2.all (·.nullable)) m)
            t.representations },
        reported ++ groups.flatMap fun g =>
          if g.2.all (·.nullable) && t.isRequired g.1.name then [neverNullWarning g.1 g.2] else []) := by
  induction groups generalizing t reported with
  | nil => simp
  | cons g gs ih =>
    rw [List.foldl_cons, sumUpRepresentation, ih, List.foldl_cons, List.flatMap_cons,
      List.append_assoc]
    rfl

section

variable {t : Maps} (hpolicies : t.policies = policiesOf requests)

include hpolicies

theorem parameter?_of_mem (h : name ∈ names requests) :
    t.parameter? name =
      some ⟨(parameterGroup requests name).required, (parameterGroup requests name).nullable⟩ := by
  rw [parameter?, hpolicies, policiesOf, Ascending.value?_tabulate isAscending_names h]

/-- A name that nobody asks for demands nothing. -/
theorem isRequired_eq (name : String) :
    t.isRequired name = (parameterGroup requests name).required := by
  by_cases h : name ∈ names requests
  · rw [isRequired, parameter?_of_mem hpolicies h]
    rfl
  · have hnone : t.parameter? name = none := by
      rw [parameter?, hpolicies, policiesOf, Ascending.value?_tabulate_of_not_mem h]
    rw [isRequired, hnone, ParameterGroup.required, requests_parameterGroup_of_not_mem h]
    rfl

end

/-- **The pass over names** sums up every name once, and warns name by name. -/
theorem foldl_sumUpParameter_entered (requests : List Request) (reported : List Diagnostic) :
    (entered requests).requestsByName.foldl sumUpParameter (entered requests, reported) =
      ({ entered requests with policies := policiesOf requests },
        reported ++ (names requests).flatMap fun name => (parameterGroup requests name).warnings) := by
  have hpolicies := Ascending.foldl_update_const (@isAscending_names requests) fun name =>
    policyOf (parameterGroup requests name).requests
  simp only [policyOf_eq] at hpolicies
  rw [foldl_sumUpParameter]
  simp only [entered, tabulate, List.foldl_map, List.flatMap_map, policyOf_eq, hpolicies]
  rfl

/-- A representation that somebody asks for accepts null if all of them do. -/
theorem all_nullable_of_mem (h : key ∈ requestedKeys requests) :
    (representationGroup requests key).requests.all (·.nullable) =
      (representationGroup requests key).nullable := by
  obtain ⟨r, hr, rfl⟩ := List.mem_map.1 (Ascending.mem_of_mem_ofList h)
  have hmem : r ∈ (representationGroup requests r.representation).requests :=
    mem_representationGroup_iff.2 ⟨hr, Representation.same_iff.2 ⟨rfl, rfl, rfl⟩⟩
  have hne : ¬(representationGroup requests r.representation).requests.isEmpty = true := by
    rw [List.isEmpty_iff]
    exact List.ne_nil_of_mem hmem
  rw [RepresentationGroup.nullable, if_neg hne]

/-- **The pass over representations** sums up every one that is asked for, and warns one by one. -/
theorem foldl_sumUpRepresentation_entered (requests : List Request) (reported : List Diagnostic) :
    (entered requests).requestsByKey.foldl sumUpRepresentation
        ({ entered requests with policies := policiesOf requests }, reported) =
      (holding requests (requestedKeys requests),
        reported ++ (requestedKeys requests).flatMap fun key =>
          (representationGroup requests key).warnings) := by
  have hrepresentations : (requestedKeys requests).foldl (fun m key =>
        update Representation.compare key
          (fun _ => (representationGroup requests key).requests.all (·.nullable)) m) [] =
      tabulate (requestedKeys requests) fun key => (representationGroup requests key).nullable := by
    rw [Ascending.foldl_update_const isAscending_requestedKeys]
    exact List.map_congr_left fun key hkey => congrArg (Prod.mk key) (all_nullable_of_mem hkey)
  have hwarnings : (requestedKeys requests).flatMap (fun key =>
        if (representationGroup requests key).requests.all (·.nullable) &&
            isRequired { entered requests with policies := policiesOf requests } key.name then
          [neverNullWarning key (representationGroup requests key).requests]
        else []) =
      (requestedKeys requests).flatMap fun key => (representationGroup requests key).warnings :=
    List.flatMap_congr fun key hkey => by
      rw [all_nullable_of_mem hkey, isRequired_eq rfl]
      rfl
  rw [foldl_sumUpRepresentation, ← hwarnings, holding, ← hrepresentations]
  simp only [entered, tabulate, List.foldl_map, List.flatMap_map]

/-! ## Adding what is missing -/

section

variable {ks : List Representation}

theorem isSome_representation?_holding_iff :
    ((holding requests ks).representation? key).isSome = true ↔ ∃ k ∈ ks, key.compare k = .eq :=
  Ascending.isSome_value?_tabulate_iff

/-- **Adding a representation** puts it in its place among the others and leaves the rest as it is,
so long as nobody asked for it. -/
theorem synthesize_holding (hks : Ascending.IsAscending Representation.compare ks)
    (hrequested : ∀ r ∈ requests, ∃ k ∈ ks, r.representation.compare k = .eq)
    (key : Representation) :
    (holding requests ks).synthesize key =
      holding requests (insertNew Representation.compare key ks) := by
  by_cases hfind : ((holding requests ks).representation? key).isSome = true
  · rw [synthesize, if_pos hfind,
      Ascending.insertNew_of_eq hks (isSome_representation?_holding_iff.1 hfind)]
  · have hnew : ∀ k ∈ ks, key.compare k ≠ .eq := fun k hk heq =>
      hfind (isSome_representation?_holding_iff.2 ⟨k, hk, heq⟩)
    have hnobody : (representationGroup requests key).requests = [] := by
      refine List.eq_nil_iff_forall_not_mem.2 fun r hr => ?_
      obtain ⟨hr, hsame⟩ := mem_representationGroup_iff.1 hr
      obtain ⟨k, hk, hrk⟩ := hrequested r hr
      have hkey : key.compare r.representation = .eq :=
        Std.OrientedCmp.eq_symm (beq_iff_eq.1 hsame)
      exact hnew k hk (Std.TransCmp.eq_trans hkey hrk)
    have hrequired : (holding requests ks).isRequired key.name =
        (representationGroup requests key).required := isRequired_eq rfl key.name
    have hnullable : (!(holding requests ks).isRequired key.name && key.default.isNone) =
        (representationGroup requests key).nullable := by
      rw [RepresentationGroup.nullable, hnobody, hrequired]
      rfl
    have hentry : update Representation.compare key (fun _ => []) (holding requests ks).requestsByKey =
        (holding requests (insertNew Representation.compare key ks)).requestsByKey :=
      Ascending.update_tabulate hks (fun _ => hnobody.symm)
        (fun k hk heq => absurd heq (hnew k hk)) fun _ _ _ => rfl
    have hpolicy : update Representation.compare key
          (fun _ => !(holding requests ks).isRequired key.name && key.default.isNone)
          (holding requests ks).representations =
        (holding requests (insertNew Representation.compare key ks)).representations :=
      Ascending.update_tabulate hks (fun _ => hnullable)
        (fun k hk heq => absurd heq (hnew k hk)) fun _ _ _ => rfl
    rw [synthesize, if_neg hfind, hentry, hpolicy]
    rfl

theorem foldl_synthesize (hks : Ascending.IsAscending Representation.compare ks)
    (hrequested : ∀ r ∈ requests, ∃ k ∈ ks, r.representation.compare k = .eq)
    (added : List Representation) :
    added.foldl synthesize (holding requests ks) =
      holding requests (added.foldl (fun ks key => insertNew Representation.compare key ks) ks) := by
  induction added generalizing ks with
  | nil => rfl
  | cons key added ih =>
    rw [List.foldl_cons, List.foldl_cons, synthesize_holding hks hrequested]
    refine ih (Ascending.isAscending_insertNew hks) fun r hr => ?_
    obtain ⟨k, hk, heq⟩ := hrequested r hr
    exact ⟨k, (Ascending.mem_insertNew_iff hks).2 (.inl hk), heq⟩

end

/-- What is missing after the passes are the siblings that are not there. -/
theorem missing_holding (d : Domain) (requests : List Request) :
    (holding requests (requestedKeys requests)).missing d =
      ((requestedKeys requests).map (sibling d)).filter fun key =>
        ((holding requests (requestedKeys requests)).representation? key).isNone := by
  rw [← List.filterMap_eq_filter, List.filterMap_map, missing]
  show ((requestedKeys requests).map _).filterMap _ = _
  rw [List.filterMap_map]
  refine List.filterMap_congr fun key hkey => ?_
  have hthere : ((holding requests (requestedKeys requests)).representation? key).isSome = true :=
    isSome_representation?_holding_iff.2 ⟨key, hkey, Std.ReflCmp.compare_self⟩
  by_cases hsource : key.type = d.sourceType key.type
  · -- such a key is its own sibling
    have hself : sibling d key = key := by rw [sibling, ← hsource]; rfl
    have hguard : (Option.guard (fun key =>
        ((holding requests (requestedKeys requests)).representation? key).isNone) key) = none :=
      if_neg (by simpa using Option.isSome_iff_ne_none.1 hthere)
    rw [Function.comp_apply, Function.comp_apply, hself, hguard]
    exact if_pos hsource
  · exact if_neg hsource

/-- **Filling a table** comes to the groups of its requests. -/
theorem fill_eq (d : Domain) (requests : List Request) (reported : List Diagnostic) :
    fill d requests reported = (ofTable (build d requests), reported ++ warnings requests) := by
  have hrequested : ∀ r ∈ requests, ∃ k ∈ requestedKeys requests, r.representation.compare k = .eq :=
    fun r hr => Ascending.exists_mem_ofList (List.mem_map_of_mem hr)
  have hthere : ∀ key ∈ (requestedKeys requests).map (sibling d),
      ((holding requests (requestedKeys requests)).representation? key).isNone = false →
      ∃ k ∈ requestedKeys requests, key.compare k = .eq := by
    intro key _ hsome
    rw [← Option.not_isSome, Bool.not_eq_false'] at hsome
    exact isSome_representation?_holding_iff.1 hsome
  have hkeys : (((holding requests (requestedKeys requests)).missing d).foldl
      (fun ks key => insertNew Representation.compare key ks) (requestedKeys requests)) =
      keys d requests := by
    rw [missing_holding, Ascending.foldl_insertNew_filter isAscending_requestedKeys hthere, keys,
      Ascending.ofList_append, Ascending.ofList_of_isAscending isAscending_requestedKeys]
  rw [fill, foldl_enter_empty, foldl_sumUpParameter_entered]
  simp only [foldl_sumUpRepresentation_entered]
  rw [foldl_synthesize isAscending_requestedKeys hrequested, hkeys, ofTable_build, warnings,
    List.append_assoc]

/-! ## Reading a table -/

theorem parameter?_ofTable (h : name ∈ names requests) :
    (ofTable (build d requests)).parameter? name =
      some ⟨(parameterGroup requests name).required, (parameterGroup requests name).nullable⟩ := by
  rw [ofTable_build]
  exact parameter?_of_mem rfl h

theorem requestsFor_ofTable (d : Domain) (requests : List Request) (name : String) :
    (ofTable (build d requests)).requestsFor name = (parameterGroup requests name).requests := by
  rw [ofTable_build, requestsFor, holding]
  by_cases h : name ∈ names requests
  · rw [Ascending.value?_tabulate isAscending_names h]
    rfl
  · rw [Ascending.value?_tabulate_of_not_mem h, requests_parameterGroup_of_not_mem h]
    rfl

theorem requestsOf_ofTable (h : key ∈ keys d requests) :
    (ofTable (build d requests)).requestsOf key = (representationGroup requests key).requests := by
  rw [ofTable_build, requestsOf, holding, Ascending.value?_tabulate isAscending_keys h]
  rfl

theorem representation?_ofTable (h : key ∈ keys d requests) :
    (ofTable (build d requests)).representation? key =
      some (representationGroup requests key).nullable := by
  rw [ofTable_build, representation?, holding, Ascending.value?_tabulate isAscending_keys h]

/-- **A pass reads the groups of a table** from the maps, the policy of every parameter among them. -/
theorem entries_ofTable (d : Domain) (requests : List Request) :
    (ofTable (build d requests)).entries =
      (build d requests).representations.map fun g =>
        ⟨g.key, g.nullable, ⟨g.required, (parameterGroup requests g.key.name).nullable⟩, g.requests⟩ := by
  have hgroups : (build d requests).representations =
      (keys d requests).map (representationGroup requests) := rfl
  rw [entries, hgroups, List.map_map]
  show (((build d requests).representations.map _).map _) = _
  rw [hgroups, List.map_map, List.map_map]
  refine List.map_congr_left fun key hkey => ?_
  have hself : (representationGroup requests key).key = key := rfl
  simp only [Function.comp_apply]
  rw [hself, parameter?_ofTable (name_mem_names hkey), requestsOf_ofTable hkey]
  rfl

end Maps

end Wiring.ParameterTable
