import Wiring.Proofs.Diagnostic
import Wiring.Proofs.Provider.Pass

/-!
# The reports of a pass

A finished pass reports one error for each site that it drops and one for each representation that
it skips. All else that it reports is a warning about the table.
-/

namespace Wiring

namespace ParameterTable

variable {requests : List Request}

theorem severity_parameterWarnings {group : ParameterGroup} :
    ∀ x ∈ group.warnings, x.severity = .warning := by
  intro x hx
  unfold ParameterGroup.warnings at hx
  split at hx
  · obtain ⟨r, _, rfl⟩ := List.mem_map.1 hx
    rfl
  · obtain ⟨r, _, rfl⟩ := List.mem_map.1 hx
    rfl
  · cases hx

theorem severity_representationWarnings {group : RepresentationGroup} :
    ∀ x ∈ group.warnings, x.severity = .warning := by
  intro x hx
  unfold RepresentationGroup.warnings at hx
  split at hx
  · rw [List.mem_singleton.1 hx]
  · cases hx

/-- A table gives rise to nothing but warnings. -/
theorem severity_warnings : ∀ x ∈ warnings requests, x.severity = .warning := by
  intro x hx
  rcases List.mem_append.1 hx with hx | hx
  · obtain ⟨name, _, hx⟩ := List.mem_flatMap.1 hx
    exact severity_parameterWarnings x hx
  · obtain ⟨key, _, hx⟩ := List.mem_flatMap.1 hx
    exact severity_representationWarnings x hx

end ParameterTable

namespace Generator

variable {g : Generator} {d : Domain} {sites : List Site}

/-! ## Dropped sites -/

/-- Whether the name of a site is a template that cannot be expanded. -/
def isUnexpandable (g : Generator) (s : Site) : Bool :=
  g.expandNames && s.qualifierName.any fun name => (Template.expand g.sources name).toOption.isNone

/-- The sites of the domain that a pass drops. -/
def dropped (g : Generator) (d : Domain) (sites : List Site) : List Site :=
  (sites.filter (isQualified d)).filter g.isUnexpandable

/-- A site with a name is dropped with an error, or it has a request. -/
theorem request_of_qualifierName {s : Site} (h : s.qualifierName ≠ none) :
    (∃ e, g.request s = .ok (.error e) ∧ e.severity = .error ∧ g.isUnexpandable s = true) ∨
      ∃ r, g.request s = .ok (.ok r) ∧ g.isUnexpandable s = false := by
  obtain ⟨name, hname⟩ := Option.ne_none_iff_exists'.1 h
  unfold request isUnexpandable
  rw [hname]
  dsimp only
  split
  · next hexpand =>
    cases hexpanded : Template.expand g.sources name with
    | ok expanded => exact .inr ⟨_, rfl, by simp [hexpanded, Except.toOption]⟩
    | error e => exact .inl ⟨_, rfl, rfl, by simp [hexpand, hexpanded, Except.toOption]⟩
  · next hexpand => exact .inr ⟨_, rfl, by simp [hexpand]⟩

/-- Along sites with names: one error for each dropped one, one request for each other one. -/
theorem filterMap_request (ss : List Site) (h : ∀ s ∈ ss, s.qualifierName ≠ none) :
    (ss.filterMap g.expansionError?).length = (ss.filter g.isUnexpandable).length ∧
      (ss.filterMap g.request?).map (·.site) = ss.filter (!g.isUnexpandable ·) := by
  induction ss with
  | nil => exact ⟨rfl, rfl⟩
  | cons s ss ih =>
    obtain ⟨herrors, hsites⟩ := ih fun s hs => h s (List.mem_cons_of_mem _ hs)
    rcases request_of_qualifierName (g := g) (h s List.mem_cons_self) with
      ⟨e, hs, _, hun⟩ | ⟨r, hs, hun⟩
    · simp [expansionError?, request?, hs, hun, herrors, hsites]
    · simp [expansionError?, request?, hs, hun, herrors, hsites, site_of_request hs]

theorem length_expansionErrors (h : AllNamed d sites) :
    (g.expansionErrors d sites).length = (g.dropped d sites).length :=
  (filterMap_request _ fun s hs => h s (List.mem_filter.1 hs).1 (List.mem_filter.1 hs).2).1

/-- **A site of the domain is dropped or survives.** -/
theorem map_site_survivors (h : AllNamed d sites) :
    (g.survivors d sites).map (·.site) =
      (sites.filter (isQualified d)).filter (!g.isUnexpandable ·) :=
  (filterMap_request _ fun s hs => h s (List.mem_filter.1 hs).1 (List.mem_filter.1 hs).2).2

/-! ## Severities -/

theorem severity_expansionErrors : ∀ x ∈ g.expansionErrors d sites, x.severity = .error := by
  intro x hx
  obtain ⟨s, _, hs⟩ := List.mem_filterMap.1 hx
  have hrequest : g.request s = .ok (.error x) := by
    unfold expansionError? at hs
    split at hs
    · next heq =>
      cases hs
      exact heq
    · cases hs
  rcases request_of_qualifierName (request_ok_iff.1 ⟨_, hrequest⟩) with
    ⟨e, he, herror, _⟩ | ⟨r, hr, _⟩
  · rw [hrequest] at he
    cases he
    exact herror
  · rw [hrequest] at hr
    cases hr

theorem severity_failures :
    ∀ x ∈ (g.emissions d sites).filterMap Emission.diagnostic?, x.severity = .error := by
  intro x hx
  obtain ⟨e, _, he⟩ := List.mem_filterMap.1 hx
  cases e with
  | provider p => cases he
  | skipped reason element =>
    cases he
    rfl

/-- **What a finished pass reports**, by severity. -/
theorem count_finishedDiagnostics (h : AllNamed d sites) (s : Severity) :
    Diagnostic.count (g.finishedDiagnostics d sites) s =
      match s with
      | .note => 0
      | .warning => (ParameterTable.warnings (g.survivors d sites)).length
      | .error => (g.dropped d sites).length + (g.finished d sites).summary.skipped := by
  unfold finishedDiagnostics
  rw [Diagnostic.count_append, Diagnostic.count_append,
    Diagnostic.count_of_severity severity_expansionErrors,
    Diagnostic.count_of_severity ParameterTable.severity_warnings,
    Diagnostic.count_of_severity severity_failures, length_expansionErrors h]
  cases s with
  | note => rfl
  | warning => simp
  | error => simp [finished]

end Generator

end Wiring
