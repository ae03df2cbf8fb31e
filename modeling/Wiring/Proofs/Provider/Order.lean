import Wiring.Proofs.Parameters.Reordering
import Wiring.Proofs.Provider.Reports

/-!
# The order of discovery

What a pass yields does not depend on the order of its sites. Both the table and the claims on
method names follow the order of the keys, so two orders of the sites give the same providers, each
with its sites in another order.
-/

namespace Wiring

/-- Two providers that differ at most in the order of their sites. -/
structure Provider.Reordered (p q : Provider) : Prop where
  eq : q = { p with sites := q.sites }
  perm : p.sites.Perm q.sites

/-- Two passes of which both fail or both yield the same, up to the order of sites. -/
inductive PassReport.Agrees (x y : PassReport) : Prop
  | failed (e e' : Error) (hx : x.outcome = .error e) (hy : y.outcome = .error e')
  | finished (p q : Pass) (hx : x.outcome = .ok p) (hy : y.outcome = .ok q)
      (hsummary : p.summary = q.summary)
      (hproviders : List.Forall₂ Provider.Reordered p.providers q.providers)
      (hcounts : ∀ s, Diagnostic.count x.diagnostics s = Diagnostic.count y.diagnostics s)

namespace Generator

variable {g : Generator} {d : Domain} {sites sites' : List Site}

/-- Two emissions that differ at most in the order of the sites: those of a provider, or those of
which a report names the first. -/
inductive Emission.Reordered : Emission → Emission → Prop
  | provider {p q : Provider} (h : p.Reordered q) : Reordered (.provider p) (.provider q)
  | skipped (reason : Error) (element element' : Option String) :
    Reordered (.skipped reason element) (.skipped reason element')

/-! ## Requests -/

theorem AllNamed.perm (hnamed : AllNamed d sites) (h : sites.Perm sites') : AllNamed d sites' :=
  fun s hs => hnamed s (h.mem_iff.2 hs)

theorem survivors_perm (h : sites.Perm sites') :
    (g.survivors d sites).Perm (g.survivors d sites') :=
  (h.filter _).filterMap _

theorem dropped_perm (h : sites.Perm sites') : (g.dropped d sites).Perm (g.dropped d sites') :=
  (h.filter _).filter _

/-! ## Emissions -/

theorem reordered_provider {r r' : RepresentationGroup} (h : r.Reordered r')
    (conversion : Conversion) :
    (g.provider d r conversion).Reordered (g.provider d r' conversion) where
  eq := by
    unfold provider
    rw [h.key_eq, h.required_eq, h.nullable_eq]
  perm := h.perm.map _

/-- **Emission only looks at the keys of the groups.** -/
theorem forall₂_emit_reordered {rs rs' : List RepresentationGroup}
    (h : List.Forall₂ RepresentationGroup.Reordered rs rs')
    (taken : List (String × Representation)) :
    List.Forall₂ Emission.Reordered (g.emit d taken rs) (g.emit d taken rs') := by
  induction h generalizing taken with
  | nil => exact .nil
  | @cons r r' rs rs' hr _ ih =>
    have hname : ∀ conversion, (g.provider d r' conversion).methodName =
        (g.provider d r conversion).methodName := by
      intro conversion
      unfold provider
      rw [hr.key_eq]
    -- both sides ask for the same conversion and claim the same name
    rw [emit, emit, ← hr.key_eq]
    dsimp only
    cases g.chain.resolve g.model r.key.type (d.sourceType r.key.type) with
    | none => exact .cons (.skipped _ _ _) (ih taken)
    | some conversion =>
      dsimp only
      rw [hname]
      cases taken.lookup (g.provider d r conversion).methodName with
      | some previous => exact .cons (.skipped _ _ _) (ih taken)
      | none => exact .cons (.provider (reordered_provider hr conversion)) (ih _)

theorem forall₂_providers {es es' : List Emission} (h : List.Forall₂ Emission.Reordered es es') :
    List.Forall₂ Provider.Reordered (es.filterMap Emission.provider?)
      (es'.filterMap Emission.provider?) := by
  induction h with
  | nil => exact .nil
  | cons he _ ih =>
    cases he with
    | provider hp => exact .cons hp ih
    | skipped reason element element' => exact ih

theorem length_failures_eq {es es' : List Emission} (h : List.Forall₂ Emission.Reordered es es') :
    (es.filterMap Emission.diagnostic?).length = (es'.filterMap Emission.diagnostic?).length := by
  have := length_providers_add_length_failures es
  have := length_providers_add_length_failures es'
  have := (forall₂_providers h).length_eq
  have := h.length_eq
  omega

/-! ## Passes -/

theorem forall₂_emissions (hparsed : ∀ s ∈ sites, s.providedType.IsParsed)
    (h : sites.Perm sites') :
    List.Forall₂ Emission.Reordered (g.emissions d sites) (g.emissions d sites') :=
  forall₂_emit_reordered
    (ParameterTable.forall₂_representations (allParsed_survivors hparsed) (survivors_perm h)) []

theorem summary_perm (hparsed : ∀ s ∈ sites, s.providedType.IsParsed) (h : sites.Perm sites') :
    (g.finished d sites).summary = (g.finished d sites').summary := by
  have hemissions := forall₂_emissions (g := g) (d := d) hparsed h
  have hparameters : (g.table d sites).parameters.length =
      (g.table d sites').parameters.length := by
    unfold table ParameterTable.build
    rw [List.length_map, List.length_map, ParameterTable.names_perm (survivors_perm h)]
  unfold finished
  rw [(h.filter _).length_eq, hparameters, (forall₂_providers hemissions).length_eq,
    length_failures_eq hemissions]

theorem count_perm (hparsed : ∀ s ∈ sites, s.providedType.IsParsed) (h : sites.Perm sites')
    (hnamed : AllNamed d sites) (s : Severity) :
    Diagnostic.count (g.finishedDiagnostics d sites) s =
      Diagnostic.count (g.finishedDiagnostics d sites') s := by
  rw [count_finishedDiagnostics hnamed, count_finishedDiagnostics (hnamed.perm h),
    ParameterTable.length_warnings_perm (allParsed_survivors hparsed) (survivors_perm h),
    (dropped_perm h).length_eq, summary_perm hparsed h]

/-- **A pass does not depend on the order of its sites.** -/
theorem agrees_of_perm (hparsed : ∀ s ∈ sites, s.providedType.IsParsed) (h : sites.Perm sites') :
    (g.pass d sites).Agrees (g.pass d sites') := by
  by_cases hnamed : AllNamed d sites
  · rw [pass_of_allNamed hnamed, pass_of_allNamed (hnamed.perm h)]
    exact .finished _ _ rfl rfl (summary_perm hparsed h)
      (forall₂_providers (forall₂_emissions hparsed h)) (count_perm hparsed h hnamed)
  · -- the first site without a name may be another one, but there is one in either order
    have hfailed : ∀ {ss}, ¬AllNamed d ss → ∃ e, (g.pass d ss).outcome = .error e := by
      intro ss hss
      cases houtcome : (g.pass d ss).outcome with
      | error e => exact ⟨e, rfl⟩
      | ok p => exact absurd (outcome_eq_ok_iff.1 houtcome).1 hss
    obtain ⟨e, he⟩ := hfailed hnamed
    obtain ⟨e', he'⟩ := hfailed fun hnamed' => hnamed (hnamed'.perm h.symm)
    exact .failed e e' he he'

theorem agrees_example :
    (∀ s ∈ exampleSites, s.providedType.IsParsed) ∧ exampleSites.Perm exampleSites.reverse ∧
      (exampleGenerator.pass exampleDomain exampleSites).Agrees
        (exampleGenerator.pass exampleDomain exampleSites.reverse) :=
  ⟨isParsed_exampleSites, exampleSites.reverse_perm.symm,
    agrees_of_perm isParsed_exampleSites exampleSites.reverse_perm.symm⟩

end Generator

end Wiring
