import Wiring.CommandLine.Run
import Wiring.Proofs.Provider.Pass

/-!
# Required, nullable, defaulted

How the providers of a pass are delivered. Requiredness is settled by name, and what a provider does
without a value follows from it and the default alone: the three policies exclude each other.
-/

namespace Wiring.Generator

variable {g : Generator} {d : Domain} {sites : List Site}

/-- How the providers of a pass over some sites are delivered. -/
structure Reconciled (g : Generator) (d : Domain) (sites : List Site) (ps : List Provider) :
    Prop where
  /-- A provider is required exactly if a site of its name that survived expansion neither accepts
  null nor has a default. -/
  required_iff : ∀ p ∈ ps, p.required = true ↔
    ∃ r ∈ g.survivors d sites, r.name = p.name ∧ r.site.nullable = false ∧ r.site.default = none
  nullable_iff : ∀ p ∈ ps, p.nullable = true ↔ p.required = false ∧ p.default = none
  /-- Providers of one name are all required or none. -/
  required_eq : ∀ p ∈ ps, ∀ q ∈ ps, p.name = q.name → p.required = q.required
  /-- Providers of one name and default agree about null, whether they were asked for or not. -/
  nullable_eq : ∀ p ∈ ps, ∀ q ∈ ps, p.name = q.name → p.default = q.default →
    p.nullable = q.nullable
  default_ne_none : ∀ p ∈ ps, p.required = false → p.nullable = false → p.default ≠ none
  /-- A provider is only called defaulted if it has a default. -/
  defaulted : ∀ styled, ∀ p ∈ ps,
    CommandLine.policy styled p = Text.Style.green.paint styled "defaulted" → p.default ≠ none

theorem required_provider_iff {p : Provider} (hp : p ∈ (g.finished d sites).providers) :
    p.required = true ↔
      ∃ r ∈ g.survivors d sites, r.name = p.name ∧ r.site.nullable = false ∧
        r.site.default = none := by
  obtain ⟨r, hr⟩ := mem_providers_iff.1 hp
  obtain ⟨conversion, rfl⟩ := emittedFrom_of_mem_settled hr
  obtain ⟨_, hgroup⟩ := group_of_mem_settled hr
  have hrequired : r.required = true ↔
      ∃ x ∈ g.survivors d sites, x.name = r.key.name ∧ x.required = true := by
    rw [congrArg RepresentationGroup.required hgroup]
    exact ParameterTable.required_representationGroup_iff
  show r.required = true ↔ _
  rw [hrequired]
  simp [Request.required, Request.nullable, Request.default, provider]

theorem nullable_provider_iff {p : Provider} (hp : p ∈ (g.finished d sites).providers) :
    p.nullable = true ↔ p.required = false ∧ p.default = none := by
  obtain ⟨r, hr⟩ := mem_providers_iff.1 hp
  obtain ⟨conversion, rfl⟩ := emittedFrom_of_mem_settled hr
  obtain ⟨_, hgroup⟩ := group_of_mem_settled hr
  show (r.nullable && !r.required && r.key.default.isNone) = true ↔
    r.required = false ∧ r.key.default = none
  constructor
  · intro h
    simp only [Bool.and_eq_true, Bool.not_eq_true', Option.isNone_iff_eq_none] at h
    exact ⟨h.1.2, h.2⟩
  · rintro ⟨hrequired, hdefault⟩
    have hnullable : r.nullable = true := by
      rw [hgroup] at hrequired ⊢
      exact ParameterTable.nullable_representationGroup hrequired hdefault
    simp [hnullable, hrequired, hdefault]

/-- The word for a provider that is required or nullable is another one. -/
theorem policy_eq_defaulted {styled : Text.Style.Enabled} {p : Provider}
    (h : CommandLine.policy styled p = Text.Style.green.paint styled "defaulted") :
    p.required = false ∧ p.nullable = false := by
  unfold CommandLine.policy at h
  split at h
  · exact absurd h (by cases styled <;> decide)
  · next hrequired =>
    split at h
    · exact absurd h (by cases styled <;> decide)
    · next hnullable => exact ⟨Bool.eq_false_iff.2 hrequired, Bool.eq_false_iff.2 hnullable⟩

/-- **What a provider does without a value is a function of its requiredness and its default.** -/
theorem reconciled_of_outcome {p : Pass} (h : (g.pass d sites).outcome = .ok p) :
    g.Reconciled d sites p.providers := by
  obtain ⟨_, rfl⟩ := outcome_eq_ok_iff.1 h
  have hdefault : ∀ p ∈ (g.finished d sites).providers, p.required = false →
      p.nullable = false → p.default ≠ none := by
    intro p hp hrequired hnullable hnone
    rw [(nullable_provider_iff hp).2 ⟨hrequired, hnone⟩] at hnullable
    cases hnullable
  have hrequired : ∀ p ∈ (g.finished d sites).providers, ∀ q ∈ (g.finished d sites).providers,
      p.name = q.name → p.required = q.required := by
    intro p hp q hq hname
    rw [Bool.eq_iff_iff, required_provider_iff hp, required_provider_iff hq, hname]
  exact
    { required_iff := fun p hp => required_provider_iff hp
      nullable_iff := fun p hp => nullable_provider_iff hp
      required_eq := hrequired
      nullable_eq := by
        intro p hp q hq hname hsame
        rw [Bool.eq_iff_iff, nullable_provider_iff hp, nullable_provider_iff hq,
          hrequired p hp q hq hname, hsame]
      default_ne_none := hdefault
      defaulted := by
        intro styled p hp hpolicy
        obtain ⟨hrequired, hnullable⟩ := policy_eq_defaulted hpolicy
        exact hdefault p hp hrequired hnullable }

theorem reconciled_example :
    (exampleGenerator.pass exampleDomain exampleSites).outcome =
        .ok (exampleGenerator.finished exampleDomain exampleSites) ∧
      exampleGenerator.Reconciled exampleDomain exampleSites
        (exampleGenerator.finished exampleDomain exampleSites).providers ∧
      (exampleGenerator.finished exampleDomain exampleSites).providers.map
          (fun p => (p.methodName, p.required, p.nullable)) =
        [ ("provideEnvHost", false, true), ("provideEnvPortAsInt", true, false),
          ("provideEnvPort", true, false),
          ("provideEnvTimeoutWithDefault624b60c5", false, false),
          ("provideEnvTimeoutAsLongWithDefault624b60c5", false, false) ] :=
  ⟨outcome_example, reconciled_of_outcome outcome_example, by decide +kernel⟩

end Wiring.Generator
