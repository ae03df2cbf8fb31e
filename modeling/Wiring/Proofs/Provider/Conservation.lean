import Wiring.Proofs.Order.Keys
import Wiring.Proofs.Provider.Precedence
import Wiring.Proofs.Provider.Reports

/-!
# Conservation of sites

What a finished pass keeps account of. Each site of the domain is dropped or survives; each
survivor is served by the one provider of its representation, or that representation is reported as
skipped. So the sites of all providers together are the survivors whose representation has a
provider, each of them once.
-/

namespace Wiring

namespace Generator

open ParameterTable (AllParsed keys)

variable {g : Generator} {d : Domain} {sites : List Site}

/-- What becomes of a survivor: it is among the sites of the only provider of its representation, or
that representation has no provider and an error that says why. -/
inductive Served (g : Generator) (d : Domain) (ds : List Diagnostic) (ps : List Provider)
    (r : Request) : Prop
  | provided (p : Provider) (hmem : p ∈ ps) (hkey : p.representation = r.representation)
      (honly : ∀ q ∈ ps, q.representation = r.representation → q = p)
      (hsite : r.element ∈ p.sites)
  | skipped (reason : Error) (element : Option String)
      (hreason : SkipReason g d ps r.representation reason)
      (hreport : ⟨.error, reason.message, element⟩ ∈ ds)
      (hnone : ∀ q ∈ ps, q.representation ≠ r.representation)

/-- What a pass keeps account of. -/
structure Conserved (g : Generator) (d : Domain) (sites : List Site) (ds : List Diagnostic)
    (p : Pass) : Prop where
  sites_eq : p.summary.sites = (sites.filter (isQualified d)).length
  survivors_eq : (g.survivors d sites).map (·.site) =
    (sites.filter (isQualified d)).filter (!g.isUnexpandable ·)
  providers_eq : p.summary.providers = p.providers.length
  representations_eq :
    p.summary.providers + p.summary.skipped = (g.table d sites).representations.length
  errors_eq : Diagnostic.count ds .error = (g.dropped d sites).length + p.summary.skipped
  served : ∀ r ∈ g.survivors d sites, g.Served d ds p.providers r
  /-- No survivor is served twice, and nothing else is served. -/
  perm : (p.providers.flatMap (·.sites)).Perm <|
    ((g.survivors d sites).filter fun r =>
      (p.providers.map Provider.representation).contains r.representation).map (·.element)

/-- A provider serves the survivors that ask for its representation. -/
theorem sites_of_mem_providers (hparsed : AllParsed (g.survivors d sites)) {p : Provider}
    (hp : p ∈ (g.finished d sites).providers) :
    p.sites =
      ((g.survivors d sites).filter (·.representation == p.representation)).map (·.element) := by
  obtain ⟨r, hr⟩ := mem_providers_iff.1 hp
  obtain ⟨conversion, rfl⟩ := emittedFrom_of_mem_settled hr
  obtain ⟨hkey, hgroup⟩ := group_of_mem_settled hr
  have hrequests : r.requests = (g.survivors d sites).filter (·.representation == r.key) := by
    rw [congrArg RepresentationGroup.requests hgroup]
    exact ParameterTable.requests_representationGroup hparsed
      (ParameterTable.isParsed_of_mem_keys hparsed hkey)
  exact congrArg (List.map (·.element)) hrequests

theorem served_of_mem_survivors (hparsed : AllParsed (g.survivors d sites)) {r : Request}
    (hr : r ∈ g.survivors d sites) :
    g.Served d (g.finishedDiagnostics d sites) (g.finished d sites).providers r := by
  have hkey : r.representation ∈ keys d (g.survivors d sites) :=
    (ParameterTable.mem_keys_iff hparsed).2 ⟨r, hr, .inl rfl⟩
  obtain ⟨e, he⟩ := exists_mem_settled hkey
  -- a provider of this representation is the emission of the group that holds the request
  have honly : ∀ q ∈ (g.finished d sites).providers, q.representation = r.representation →
      Emission.provider q = e := fun q hq hqr => provider_eq_of_mem_settled he hq hqr
  have hemitted := emittedFrom_of_mem_settled he
  cases e with
  | provider p =>
    have hp : p ∈ (g.finished d sites).providers := mem_providers_iff.2 ⟨_, he⟩
    obtain ⟨conversion, hprovider⟩ := hemitted
    have hpkey : p.representation = r.representation := by
      rw [hprovider]
      rfl
    refine .provided p hp hpkey (fun q hq hqr => by cases honly q hq hqr; rfl) ?_
    rw [sites_of_mem_providers hparsed hp, hpkey]
    exact List.mem_map_of_mem (List.mem_filter.2 ⟨hr, beq_self_eq_true _⟩)
  | skipped reason element =>
    obtain ⟨hreason, _⟩ := hemitted
    exact .skipped reason element hreason (report_mem_of_skipped he)
      fun q hq hqr => by cases honly q hq hqr

theorem perm_sites (hparsed : AllParsed (g.survivors d sites)) :
    ((g.finished d sites).providers.flatMap (·.sites)).Perm <|
      ((g.survivors d sites).filter fun r =>
        ((g.finished d sites).providers.map Provider.representation).contains
          r.representation).map (·.element) := by
  have hsites : (g.finished d sites).providers.flatMap (·.sites) =
      (((g.finished d sites).providers.map Provider.representation).flatMap fun key =>
        (g.survivors d sites).filter (·.representation == key)).map (·.element) := by
    rw [List.flatMap_map, List.map_flatMap]
    exact List.flatMap_congr fun p hp => sites_of_mem_providers hparsed hp
  rw [hsites]
  exact (perm_flatMap_filter Request.representation _ isAscending_representations.nodup).map _

/-- **No site of the domain is lost silently or served twice.** -/
theorem conserved_of_outcome {p : Pass} (hparsed : ∀ s ∈ sites, s.providedType.IsParsed)
    (h : (g.pass d sites).outcome = .ok p) :
    g.Conserved d sites (g.pass d sites).diagnostics p := by
  obtain ⟨hnamed, rfl⟩ := outcome_eq_ok_iff.1 h
  have hsurvivors := allParsed_survivors (g := g) (d := d) hparsed
  rw [pass_of_allNamed hnamed]
  exact
    { sites_eq := rfl
      survivors_eq := map_site_survivors hnamed
      providers_eq := rfl
      representations_eq := (length_providers_add_length_failures _).trans length_emissions
      errors_eq := count_finishedDiagnostics hnamed .error
      served := fun r hr => served_of_mem_survivors hsurvivors hr
      perm := perm_sites hsurvivors }

theorem conserved_example :
    (∀ s ∈ exampleSites, s.providedType.IsParsed) ∧
      (exampleGenerator.pass exampleDomain exampleSites).outcome =
        .ok (exampleGenerator.finished exampleDomain exampleSites) ∧
      exampleGenerator.Conserved exampleDomain exampleSites
        (exampleGenerator.pass exampleDomain exampleSites).diagnostics
        (exampleGenerator.finished exampleDomain exampleSites) ∧
      (exampleGenerator.finished exampleDomain exampleSites).summary =
        { sites := 5, parameters := 3, providers := 5, skipped := 1 } ∧
      (exampleGenerator.dropped exampleDomain exampleSites).map (·.element) = ["gone"] ∧
      (exampleGenerator.finished exampleDomain exampleSites).providers.map (·.sites) =
        [[], ["port"], ["portText"], [], ["timeout"]] ∧
      Diagnostic.count (exampleGenerator.pass exampleDomain exampleSites).diagnostics .error = 2 :=
  ⟨isParsed_exampleSites, outcome_example,
    conserved_of_outcome isParsed_exampleSites outcome_example, by decide +kernel, by decide +kernel,
    by decide +kernel, by decide +kernel⟩

end Generator

end Wiring
