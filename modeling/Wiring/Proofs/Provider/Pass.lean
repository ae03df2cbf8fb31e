import Mathlib.Data.List.Forall2
import Mathlib.Data.List.Nodup
import Wiring.Proofs.Order.UntilFailure
import Wiring.Proofs.Parameters.Table
import Wiring.Provider.Pass

/-!
# Finished passes

A pass finishes exactly if every site of its domain has a name. What it then yields is said here
without the loops: the requests that survive expansion, the table of these, and one emission for
each representation of the table.
-/

namespace Wiring

/-- The representation that a provider is made for. -/
def Provider.representation (p : Provider) : Representation := ⟨p.providedType, p.name, p.default⟩

namespace Generator

variable {g : Generator} {d : Domain} {sites : List Site}

/-! ## Requests -/

/-- Every site of the domain has a name. -/
def AllNamed (d : Domain) (sites : List Site) : Prop :=
  ∀ s ∈ sites, isQualified d s = true → s.qualifierName ≠ none

/-- The request of a site, unless its name cannot be expanded. -/
def request? (g : Generator) (s : Site) : Option Request :=
  match g.request s with
  | .ok (.ok r) => some r
  | _ => none

/-- The report about a site whose name cannot be expanded. -/
def expansionError? (g : Generator) (s : Site) : Option Diagnostic :=
  match g.request s with
  | .ok (.error e) => some e
  | _ => none

/-- The requests of a pass: one for each site of the domain whose name can be expanded. -/
def survivors (g : Generator) (d : Domain) (sites : List Site) : List Request :=
  (sites.filter (isQualified d)).filterMap g.request?

/-- The reports about the sites of the domain whose names cannot be expanded. -/
def expansionErrors (g : Generator) (d : Domain) (sites : List Site) : List Diagnostic :=
  (sites.filter (isQualified d)).filterMap g.expansionError?

theorem request?_eq_some_iff {s : Site} {r : Request} :
    g.request? s = some r ↔ g.request s = .ok (.ok r) := by
  unfold request?
  split
  · next heq => simp [heq]
  · next hne => exact ⟨nofun, fun h => absurd h (hne r)⟩

/-- A survivor is the request of a site of the domain. -/
theorem mem_survivors_iff {r : Request} :
    r ∈ g.survivors d sites ↔
      ∃ s ∈ sites, isQualified d s = true ∧ g.request s = .ok (.ok r) := by
  simp only [survivors, List.mem_filterMap, List.mem_filter, request?_eq_some_iff, and_assoc]

/-- A request is about the site that it was made for. -/
theorem site_of_request {s : Site} {r : Request} (h : g.request s = .ok (.ok r)) : r.site = s := by
  unfold request at h
  split at h
  · cases h
  · split at h
    · split at h
      · cases h
        rfl
      · cases h
    · cases h
      rfl

theorem allParsed_survivors (h : ∀ s ∈ sites, s.providedType.IsParsed) :
    ParameterTable.AllParsed (g.survivors d sites) := by
  intro r hr
  obtain ⟨s, hs, _, hrequest⟩ := mem_survivors_iff.1 hr
  show r.site.providedType.IsParsed
  rw [site_of_request hrequest]
  exact h s hs

theorem request_ok_iff {s : Site} : (∃ x, g.request s = .ok x) ↔ s.qualifierName ≠ none := by
  unfold request
  constructor
  · rintro ⟨x, h⟩ hnone
    simp [hnone] at h
  · intro h
    obtain ⟨name, hname⟩ := Option.ne_none_iff_exists'.1 h
    rw [hname]
    dsimp only
    split
    · split <;> exact ⟨_, rfl⟩
    · exact ⟨_, rfl⟩

theorem untilFailure_request_eq_none_iff :
    (untilFailure g.request (sites.filter (isQualified d))).2 = none ↔ AllNamed d sites := by
  simp only [untilFailure_snd_eq_none_iff, List.mem_filter, request_ok_iff, and_imp, AllNamed]

/-! ## Emissions -/

/-- Why a representation may have to do without a provider: there is no conversion to its type, or
one of the providers has its method name. -/
inductive SkipReason (g : Generator) (d : Domain) (ps : List Provider) (key : Representation) :
    Error → Prop
  | unconvertible (h : g.chain.resolve g.model key.type (d.sourceType key.type) = none) :
    SkipReason g d ps key
      (.conversionUnavailable key.name (d.sourceType key.type).text key.type.text)
  | taken (previous : Provider) (hmem : previous ∈ ps)
    (hname : previous.methodName =
      MethodName.compose d.methodTag key.name key.type key.default) :
    SkipReason g d ps key
      (.providerNameCollision previous.methodName key.text previous.representation.text)

/-- What may become of a representation, given the providers of its pass. -/
def EmittedFrom (g : Generator) (d : Domain) (ps : List Provider) (r : RepresentationGroup) :
    Emission → Prop
  | .provider p => ∃ conversion, p = g.provider d r conversion
  | .skipped reason element => SkipReason g d ps r.key reason ∧ element = r.element?

/-- The names that are taken are those of providers, each with its representation. -/
def AllTakenBy (ps : List Provider) (taken : List (String × Representation)) : Prop :=
  ∀ c ∈ taken, ∃ p ∈ ps, c = (p.methodName, p.representation)

theorem allTakenBy_nil {ps : List Provider} : AllTakenBy ps [] :=
  fun _ hc => absurd hc List.not_mem_nil

theorem AllTakenBy.cons {ps : List Provider} {taken : List (String × Representation)}
    (h : AllTakenBy ps taken) {p : Provider} (hp : p ∈ ps) :
    AllTakenBy ps ((p.methodName, p.representation) :: taken) := by
  intro c hc
  rcases List.mem_cons.1 hc with rfl | hc
  · exact ⟨p, hp, rfl⟩
  · exact h c hc

/-- A name that is taken is the name of a provider. -/
theorem AllTakenBy.of_lookup {ps : List Provider} {taken : List (String × Representation)}
    (h : AllTakenBy ps taken) {name : String} {previous : Representation}
    (hlookup : taken.lookup name = some previous) :
    ∃ p ∈ ps, p.methodName = name ∧ p.representation = previous := by
  obtain ⟨before, after, hsplit, _⟩ := List.lookup_eq_some_iff.1 hlookup
  have hmem : (name, previous) ∈ taken := by
    rw [hsplit]
    exact List.mem_append_right _ List.mem_cons_self
  obtain ⟨p, hp, heq⟩ := h _ hmem
  obtain ⟨rfl, rfl⟩ := Prod.mk.inj heq
  exact ⟨p, hp, rfl, rfl⟩

/-- **Every representation has its emission, in order.** -/
theorem forall₂_emit {ps : List Provider} {taken : List (String × Representation)}
    (htaken : AllTakenBy ps taken) (rs : List RepresentationGroup)
    (hps : ∀ p, .provider p ∈ g.emit d taken rs → p ∈ ps) :
    List.Forall₂ (g.EmittedFrom d ps) rs (g.emit d taken rs) := by
  induction rs generalizing taken with
  | nil => exact .nil
  | cons r rs ih =>
    revert hps
    rw [emit]
    dsimp only
    cases hresolve : g.chain.resolve g.model r.key.type (d.sourceType r.key.type) with
    | none =>
      intro hps
      exact .cons ⟨.unconvertible hresolve, rfl⟩
        (ih htaken fun p hp => hps p (List.mem_cons_of_mem _ hp))
    | some conversion =>
      dsimp only
      cases hlookup : taken.lookup (g.provider d r conversion).methodName with
      | some previous =>
        intro hps
        obtain ⟨p, hp, hname, rfl⟩ := htaken.of_lookup hlookup
        rw [← hname]
        exact .cons ⟨.taken p hp hname, rfl⟩
          (ih htaken fun p hp => hps p (List.mem_cons_of_mem _ hp))
      | none =>
        -- the provider takes its name before the others have their turn
        intro hps
        have hp : g.provider d r conversion ∈ ps := hps _ List.mem_cons_self
        exact .cons ⟨conversion, rfl⟩
          (ih (htaken.cons hp) fun p hp => hps p (List.mem_cons_of_mem _ hp))

theorem forall₂_emit_nil (rs : List RepresentationGroup) :
    List.Forall₂ (g.EmittedFrom d ((g.emit d [] rs).filterMap Emission.provider?)) rs
      (g.emit d [] rs) :=
  forall₂_emit allTakenBy_nil rs fun _ hp => List.mem_filterMap.2 ⟨_, hp, rfl⟩

theorem length_emit (rs : List RepresentationGroup) : (g.emit d [] rs).length = rs.length :=
  (forall₂_emit_nil rs).length_eq.symm

/-- An emission is a provider or a report, never both. -/
theorem length_providers_add_length_failures (es : List Emission) :
    (es.filterMap Emission.provider?).length + (es.filterMap Emission.diagnostic?).length =
      es.length := by
  induction es with
  | nil => rfl
  | cons e es ih =>
    cases e with
    | provider p =>
      simp only [List.filterMap_cons, Emission.provider?, Emission.diagnostic?, List.length_cons]
      omega
    | skipped reason element =>
      simp only [List.filterMap_cons, Emission.provider?, Emission.diagnostic?, List.length_cons]
      omega

/-- Providers come in the order of the groups, and none twice. -/
theorem sublist_providers {ps : List Provider} {rs : List RepresentationGroup} {es : List Emission}
    (h : List.Forall₂ (g.EmittedFrom d ps) rs es) :
    ((es.filterMap Emission.provider?).map Provider.representation).Sublist (rs.map (·.key)) := by
  induction h with
  | nil => exact .slnil
  | @cons r e rs es hre _ ih =>
    cases e with
    | provider p =>
      obtain ⟨conversion, rfl⟩ := hre
      exact ih.cons_cons _
    | skipped reason element => exact ih.cons _

/-! ## Passes -/

/-- The table of a pass. -/
def table (g : Generator) (d : Domain) (sites : List Site) : ParameterTable :=
  .build d (g.survivors d sites)

/-- What becomes of the representations of a pass. -/
def emissions (g : Generator) (d : Domain) (sites : List Site) : List Emission :=
  g.emit d [] (g.table d sites).representations

/-- What a pass over sites with names yields. -/
def finished (g : Generator) (d : Domain) (sites : List Site) : Pass where
  providers := (g.emissions d sites).filterMap Emission.provider?
  summary :=
    { sites := (sites.filter (isQualified d)).length
      parameters := (g.table d sites).parameters.length
      providers := ((g.emissions d sites).filterMap Emission.provider?).length
      skipped := ((g.emissions d sites).filterMap Emission.diagnostic?).length }

/-- What a pass over sites with names reports. -/
def finishedDiagnostics (g : Generator) (d : Domain) (sites : List Site) : List Diagnostic :=
  g.expansionErrors d sites ++ ParameterTable.warnings (g.survivors d sites) ++
    (g.emissions d sites).filterMap Emission.diagnostic?

/-- The representations of a pass, each with what becomes of it. -/
def settled (g : Generator) (d : Domain) (sites : List Site) :
    List (RepresentationGroup × Emission) :=
  (g.table d sites).representations.zip (g.emissions d sites)

theorem forall₂_emittedFrom :
    List.Forall₂ (g.EmittedFrom d (g.finished d sites).providers)
      (g.table d sites).representations (g.emissions d sites) :=
  forall₂_emit_nil _

theorem length_emissions :
    (g.emissions d sites).length = (g.table d sites).representations.length :=
  length_emit _

theorem map_fst_settled :
    (g.settled d sites).map Prod.fst = (g.table d sites).representations :=
  List.map_fst_zip (Nat.le_of_eq length_emissions.symm)

theorem map_snd_settled : (g.settled d sites).map Prod.snd = g.emissions d sites :=
  List.map_snd_zip (Nat.le_of_eq length_emissions)

theorem emittedFrom_of_mem_settled {r : RepresentationGroup} {e : Emission}
    (h : (r, e) ∈ g.settled d sites) : g.EmittedFrom d (g.finished d sites).providers r e :=
  (List.forall₂_iff_zip.1 forall₂_emittedFrom).2 h

/-- The groups of a table have distinct keys. -/
theorem nodup_keys_settled : ((g.settled d sites).map (·.1.key)).Nodup := by
  have hkeys : (g.settled d sites).map (·.1.key) = ParameterTable.keys d (g.survivors d sites) := by
    rw [← Function.comp_def, ← List.map_map, map_fst_settled]
    exact ParameterTable.map_key_representations
  rw [hkeys]
  exact ParameterTable.nodup_keys

/-- One key has one group and one emission. -/
theorem eq_of_mem_settled {x y : RepresentationGroup × Emission} (hx : x ∈ g.settled d sites)
    (hy : y ∈ g.settled d sites) (h : x.1.key = y.1.key) : x = y :=
  List.inj_on_of_nodup_map nodup_keys_settled hx hy h

theorem mem_emissions_iff {e : Emission} :
    e ∈ g.emissions d sites ↔ ∃ r, (r, e) ∈ g.settled d sites := by
  rw [← map_snd_settled, List.mem_map]
  exact ⟨fun ⟨⟨r, _⟩, h, he⟩ => ⟨r, he ▸ h⟩, fun ⟨r, h⟩ => ⟨(r, e), h, rfl⟩⟩

/-- Where a representation is skipped, the pass reports why. -/
theorem report_mem_of_skipped {r : RepresentationGroup} {reason : Error} {element : Option String}
    (h : (r, .skipped reason element) ∈ g.settled d sites) :
    ⟨.error, reason.message, element⟩ ∈ g.finishedDiagnostics d sites := by
  have hemission : Emission.skipped reason element ∈ g.emissions d sites :=
    mem_emissions_iff.2 ⟨r, h⟩
  exact List.mem_append_right _ (List.mem_filterMap.2 ⟨_, hemission, rfl⟩)

/-- The providers of a pass, each with the group that it is made for. -/
theorem mem_providers_iff {p : Provider} :
    p ∈ (g.finished d sites).providers ↔ ∃ r, (r, .provider p) ∈ g.settled d sites := by
  rw [← mem_emissions_iff, finished, List.mem_filterMap]
  constructor
  · rintro ⟨e, he, hp⟩
    cases e with
    | provider q =>
      cases hp
      exact he
    | skipped reason element => cases hp
  · intro h
    exact ⟨_, h, rfl⟩

/-- A group of a pass holds the survivors that have its key. -/
theorem group_of_mem_settled {r : RepresentationGroup} {e : Emission}
    (h : (r, e) ∈ g.settled d sites) :
    r.key ∈ ParameterTable.keys d (g.survivors d sites) ∧
      r = ParameterTable.representationGroup (g.survivors d sites) r.key := by
  have hr : r ∈ (g.table d sites).representations := by
    rw [← map_fst_settled]
    exact List.mem_map.2 ⟨(r, e), h, rfl⟩
  obtain ⟨key, hkey, rfl⟩ := List.mem_map.1 hr
  exact ⟨hkey, rfl⟩

/-- Every key of the table has a group, and the group an emission. -/
theorem exists_mem_settled {key : Representation}
    (h : key ∈ ParameterTable.keys d (g.survivors d sites)) :
    ∃ e, (ParameterTable.representationGroup (g.survivors d sites) key, e) ∈ g.settled d sites := by
  have hgroup : ParameterTable.representationGroup (g.survivors d sites) key ∈
      (g.settled d sites).map Prod.fst := by
    rw [map_fst_settled]
    exact List.mem_map_of_mem h
  obtain ⟨⟨_, e⟩, he, rfl⟩ := List.mem_map.1 hgroup
  exact ⟨e, he⟩

/-- A provider of the key of a group is the emission of that group. -/
theorem provider_eq_of_mem_settled {r : RepresentationGroup} {e : Emission}
    (h : (r, e) ∈ g.settled d sites) {p : Provider} (hp : p ∈ (g.finished d sites).providers)
    (hkey : p.representation = r.key) : Emission.provider p = e := by
  obtain ⟨group, hgroup⟩ := mem_providers_iff.1 hp
  obtain ⟨conversion, rfl⟩ := emittedFrom_of_mem_settled hgroup
  exact congrArg Prod.snd (eq_of_mem_settled hgroup h hkey)

theorem pass_of_allNamed (h : AllNamed d sites) :
    g.pass d sites = ⟨g.finishedDiagnostics d sites, .ok (g.finished d sites)⟩ := by
  have hnone := untilFailure_request_eq_none_iff (g := g).2 h
  have hvalues : values (untilFailure g.request (sites.filter (isQualified d))).1 =
      g.survivors d sites := by
    refine (filterMap_untilFailure _ hnone).trans (List.filterMap_congr fun s _ => ?_)
    rcases hs : g.request s with _ | _ | _ <;> simp [request?, hs, Except.toOption]
  have herrors : errors (untilFailure g.request (sites.filter (isQualified d))).1 =
      g.expansionErrors d sites := by
    refine (filterMap_untilFailure _ hnone).trans (List.filterMap_congr fun s _ => ?_)
    rcases hs : g.request s with _ | _ | _ <;> simp [expansionError?, hs, Except.toOption]
  unfold pass
  simp only [hnone, hvalues, herrors]
  rfl

/-- **A pass finishes exactly if every site of its domain has a name.** -/
theorem outcome_eq_ok_iff {p : Pass} :
    (g.pass d sites).outcome = .ok p ↔ AllNamed d sites ∧ p = g.finished d sites := by
  constructor
  · intro h
    have hnamed : AllNamed d sites := by
      rw [← untilFailure_request_eq_none_iff (g := g)]
      unfold pass at h
      dsimp only at h
      split at h
      · cases h
      · next hnone => exact hnone
    rw [pass_of_allNamed hnamed] at h
    cases h
    exact ⟨hnamed, rfl⟩
  · rintro ⟨hnamed, rfl⟩
    rw [pass_of_allNamed hnamed]

/-! ## A pass with every kind of result

Five sites of one domain: a required parameter in two types, a type without a conversion, a name
that cannot be expanded, and a default. -/

/-- A field with a qualifier. -/
def exampleSite (element name : String) (type : TypeRef) (default : Option String)
    (nullable : Bool) : Site where
  element
  kind := .field
  style := .verbatim
  declaredType := type
  providedType := type
  qualifier := some (.named "EnvironmentVariable" name default)
  annotations := [.named "EnvironmentVariable" name default]
  nullable

def exampleSites : List Site :=
  [ exampleSite "port" "PORT" (.primitive .int) none false,
    exampleSite "portText" "PORT" .string none true,
    exampleSite "host" "HOST" (.declared "app.Host" []) none true,
    exampleSite "gone" "$\x7benv.GONE\x7d" .string none false,
    exampleSite "timeout" "TIMEOUT" (.primitive .long) (some "30") false ]

theorem isParsed_exampleSites : ∀ s ∈ exampleSites, s.providedType.IsParsed := by
  intro s hs
  simp only [exampleSites, List.mem_cons, List.not_mem_nil, or_false] at hs
  rcases hs with rfl | rfl | rfl | rfl | rfl
  · exact TypeRef.isParsed_iff.2 trivial
  · exact TypeRef.isParsed_string
  · exact TypeRef.isParsed_iff.2 ⟨by decide, trivial⟩
  · exact TypeRef.isParsed_string
  · exact TypeRef.isParsed_iff.2 trivial

/-- A generator for which no variable has a value and no class is declared. -/
def exampleGenerator : Generator where
  model := .empty
  sources := ⟨fun _ => none, fun _ => none⟩

def exampleDomain : Domain where
  name := "env"
  qualifier := "EnvironmentVariable"
  methodTag := "Env"

theorem outcome_example :
    (exampleGenerator.pass exampleDomain exampleSites).outcome =
      .ok (exampleGenerator.finished exampleDomain exampleSites) :=
  outcome_eq_ok_iff.2 ⟨by unfold AllNamed; decide, rfl⟩

end Generator

end Wiring
