import Wiring.Proofs.Order.SortedMap
import Wiring.Proofs.Parameters.Warnings
import Wiring.Proofs.Provider.Policy
import Wiring.Proofs.Provider.Precedence
import Wiring.Proofs.Provider.Reports

/-!
# What warnings tell of providers

A warning tells a site what it gets in place of what it asked for, before any provider is made. The
providers of a finished pass keep to it: one that is said to return null may do so, one whose default
is said to apply has it, and one that is said to be never null is not.
-/

namespace Wiring

open ParameterTable (Warns WarnsOf IsMixed IsNeverNull WarnsExactly warnings requestedKeys)

/-! ## How warnings end -/

/-- The message ends in the phrase. -/
def Diagnostic.Says (w : Diagnostic) (phrase : String) : Prop :=
  phrase.toList <:+ w.message.toList

theorem Diagnostic.says_append {severity : Severity} {message phrase : String}
    {element : Option String} :
    Diagnostic.Says ⟨severity, message ++ phrase, element⟩ phrase := by
  rw [Diagnostic.Says, String.toList_append]
  exact List.suffix_append _ _

/-- A message ends in one of two phrases only, if none of these ends in the other. -/
theorem Diagnostic.Says.suffix_or {w : Diagnostic} {a b : String} (ha : w.Says a) (hb : w.Says b) :
    a.toList <:+ b.toList ∨ b.toList <:+ a.toList :=
  List.suffix_or_suffix_of_suffix ha hb

namespace ParameterTable

variable {requests : List Request} {r : Request} {w : Diagnostic}

/-- Of the warnings to requests, those about mixed nullability end in one of these phrases. -/
theorem isMixed_of_phrase {phrase : String} (h : Warns requests r w) (hphrase : w.Says phrase)
    (hignored : ¬(phrase.toList <:+ " is ignored".toList ∨ " is ignored".toList <:+ phrase.toList)) :
    IsMixed requests r ∧ ∃ refusing, w = ParameterGroup.mixedWarning refusing r := by
  cases h with
  | ignored => exact absurd (hphrase.suffix_or Diagnostic.says_append) hignored
  | @mixed refusing h _ => exact ⟨h, refusing, rfl⟩

theorem isMixed_of_null (h : Warns requests r w)
    (hphrase : w.Says "its provider returns null when the value is unset") :
    IsMixed requests r ∧ r.default = none := by
  obtain ⟨hmixed, refusing, rfl⟩ := isMixed_of_phrase h hphrase (by decide)
  refine ⟨hmixed, ?_⟩
  cases hdefault : r.default with
  | none => rfl
  | some value =>
    have hends : (ParameterGroup.mixedWarning refusing r).Says
        "its default value applies when the value is unset" := by
      rw [ParameterGroup.mixedWarning, hdefault]
      exact Diagnostic.says_append
    exact absurd (hphrase.suffix_or hends) (by decide)

theorem isMixed_of_default (h : Warns requests r w)
    (hphrase : w.Says "its default value applies when the value is unset") :
    IsMixed requests r ∧ r.default ≠ none := by
  obtain ⟨hmixed, refusing, rfl⟩ := isMixed_of_phrase h hphrase (by decide)
  refine ⟨hmixed, fun hdefault => ?_⟩
  have hends : (ParameterGroup.mixedWarning refusing r).Says
      "its provider returns null when the value is unset" := by
    rw [ParameterGroup.mixedWarning, hdefault]
    exact Diagnostic.says_append
  exact absurd (hphrase.suffix_or hends) (by decide)

end ParameterTable

namespace Generator

variable {g : Generator} {d : Domain} {sites : List Site}

/-! ## The providers of a representation -/

/-- What becomes of a representation: its only provider has `P`, or it has no provider and an error
says why. -/
inductive Delivered (g : Generator) (d : Domain) (ds : List Diagnostic) (ps : List Provider)
    (key : Representation) (P : Provider → Prop) : Prop
  | provided (p : Provider) (hmem : p ∈ ps) (hkey : p.representation.same key = true)
      (honly : ∀ q ∈ ps, q.representation.same key = true → q = p) (h : P p)
  | skipped (skipped : Representation) (hkey : skipped.same key = true) (reason : Error)
      (element : Option String) (hreason : SkipReason g d ps skipped reason)
      (hreport : ⟨.error, reason.message, element⟩ ∈ ds)
      (hnone : ∀ q ∈ ps, q.representation.same key = false)

/-- A representation that is asked for has its place among the keys of the table. -/
theorem exists_mem_settled_of_survivor {r : Request} (hr : r ∈ g.survivors d sites) :
    ∃ group e, (group, e) ∈ g.settled d sites ∧ r.representation.compare group.key = .eq := by
  obtain ⟨requested, hrequested, heq⟩ : ∃ k ∈ requestedKeys (g.survivors d sites),
      r.representation.compare k = .eq :=
    Ascending.exists_mem_ofList (List.mem_map_of_mem hr)
  obtain ⟨key, hkey, heq'⟩ : ∃ k ∈ ParameterTable.keys d (g.survivors d sites),
      requested.compare k = .eq :=
    Ascending.exists_mem_ofList (List.mem_append_left _ hrequested)
  obtain ⟨e, he⟩ := exists_mem_settled hkey
  exact ⟨_, e, he, Std.TransCmp.eq_trans heq heq'⟩

/-- What all providers of a representation have in common, its provider has. -/
theorem delivered_of_forall {r : Request} {P : Provider → Prop} (hr : r ∈ g.survivors d sites)
    (h : ∀ p ∈ (g.finished d sites).providers, p.representation.same r.representation = true → P p) :
    g.Delivered d (g.finishedDiagnostics d sites) (g.finished d sites).providers
      r.representation P := by
  obtain ⟨group, e, he, hkey⟩ := exists_mem_settled_of_survivor hr
  have hsame : group.key.same r.representation = true :=
    beq_iff_eq.2 (Std.OrientedCmp.eq_symm hkey)
  -- no two keys of the table have the same place in the order
  have honly : ∀ q ∈ (g.finished d sites).providers,
      q.representation.same r.representation = true → Emission.provider q = e := by
    intro q hq hqr
    obtain ⟨group', hgroup'⟩ := mem_providers_iff.1 hq
    obtain ⟨conversion, rfl⟩ := emittedFrom_of_mem_settled hgroup'
    have heq : group'.key.compare group.key = .eq :=
      Std.TransCmp.eq_trans (beq_iff_eq.1 hqr) hkey
    have hmem : group'.key ∈ (g.table d sites).representations.map (·.key) := by
      rw [table, ParameterTable.map_key_representations]
      exact (group_of_mem_settled hgroup').1
    have hmem' : group.key ∈ (g.table d sites).representations.map (·.key) := by
      rw [table, ParameterTable.map_key_representations]
      exact (group_of_mem_settled he).1
    exact provider_eq_of_mem_settled he hq (isAscending_keys.eq_of_compare_eq hmem hmem' heq)
  have hemitted := emittedFrom_of_mem_settled he
  cases e with
  | provider p =>
    have hp : p ∈ (g.finished d sites).providers := mem_providers_iff.2 ⟨_, he⟩
    obtain ⟨conversion, rfl⟩ := hemitted
    exact .provided _ hp hsame (fun q hq hqr => by cases honly q hq hqr; rfl) (h _ hp hsame)
  | skipped reason element =>
    obtain ⟨hreason, -⟩ := hemitted
    refine .skipped group.key hsame reason element hreason (report_mem_of_skipped he) ?_
    intro q hq
    rw [Bool.eq_false_iff]
    intro hqr
    cases honly q hq hqr

/-! ## The warnings of a pass -/

/-- What the warnings of a pass tell of its providers. -/
structure Truthful (g : Generator) (d : Domain) (sites : List Site) (ds : List Diagnostic)
    (ps : List Provider) : Prop where
  /-- The warnings of a pass are those of its table. -/
  warnings_eq : ds.filter (·.severity == .warning) = warnings (g.survivors d sites)
  returns_null : ∀ r ∈ g.survivors d sites, ∀ w, Warns (g.survivors d sites) r w →
    w.Says "its provider returns null when the value is unset" →
    g.Delivered d ds ps r.representation fun p => p.nullable = true
  default_applies : ∀ r ∈ g.survivors d sites, ∀ w, Warns (g.survivors d sites) r w →
    w.Says "its default value applies when the value is unset" →
    g.Delivered d ds ps r.representation fun p =>
      p.default = r.default ∧ p.default ≠ none ∧ p.nullable = false
  never_null : ∀ key ∈ requestedKeys (g.survivors d sites), ∀ w,
    WarnsOf (g.survivors d sites) key w →
    w.Says "it will never be null" ∧ g.Delivered d ds ps key fun p => p.nullable = false

theorem filter_warning_finishedDiagnostics :
    (g.finishedDiagnostics d sites).filter (·.severity == .warning) =
      warnings (g.survivors d sites) := by
  have herrors : (g.expansionErrors d sites).filter (·.severity == .warning) = [] :=
    List.filter_eq_nil_iff.2 fun x hx => by simp [severity_expansionErrors x hx]
  have hfailures : ((g.emissions d sites).filterMap Emission.diagnostic?).filter
      (·.severity == .warning) = [] :=
    List.filter_eq_nil_iff.2 fun x hx => by simp [severity_failures x hx]
  have hwarnings : (warnings (g.survivors d sites)).filter (·.severity == .warning) =
      warnings (g.survivors d sites) :=
    List.filter_eq_self.2 fun x hx => by simp [ParameterTable.severity_warnings x hx]
  rw [finishedDiagnostics, List.filter_append, List.filter_append, herrors, hfailures, hwarnings,
    List.nil_append, List.append_nil]

theorem required_provider_iff_isDemanded {p : Provider}
    (hp : p ∈ (g.finished d sites).providers) :
    p.required = true ↔ ParameterTable.IsDemanded (g.survivors d sites) p.name := by
  rw [required_provider_iff hp]
  simp [ParameterTable.IsDemanded, Request.required, Request.nullable, Request.default]

theorem delivered_null {r : Request} (hr : r ∈ g.survivors d sites)
    (hmixed : IsMixed (g.survivors d sites) r) (hdefault : r.default = none) :
    g.Delivered d (g.finishedDiagnostics d sites) (g.finished d sites).providers r.representation
      fun p => p.nullable = true := by
  refine delivered_of_forall hr fun p hp hsame => ?_
  obtain ⟨hname, hpdefault, -⟩ := Representation.same_iff.1 hsame
  refine (nullable_provider_iff hp).2 ⟨?_, hpdefault.trans hdefault⟩
  rw [Bool.eq_false_iff, Ne, required_provider_iff_isDemanded hp, show p.name = r.name from hname]
  exact hmixed.2.1

theorem delivered_default {r : Request} (hr : r ∈ g.survivors d sites) (hdefault : r.default ≠ none) :
    g.Delivered d (g.finishedDiagnostics d sites) (g.finished d sites).providers r.representation
      fun p => p.default = r.default ∧ p.default ≠ none ∧ p.nullable = false := by
  refine delivered_of_forall hr fun p hp hsame => ?_
  obtain ⟨-, hpdefault, -⟩ := Representation.same_iff.1 hsame
  have hsome : p.default ≠ none := hpdefault.trans_ne hdefault
  refine ⟨hpdefault, hsome, ?_⟩
  rw [Bool.eq_false_iff]
  exact fun hnullable => hsome ((nullable_provider_iff hp).1 hnullable).2

theorem delivered_never_null {key : Representation} (hkey : key ∈ requestedKeys (g.survivors d sites))
    (hnever : IsNeverNull (g.survivors d sites) key) :
    g.Delivered d (g.finishedDiagnostics d sites) (g.finished d sites).providers key
      fun p => p.nullable = false := by
  obtain ⟨r, hr, rfl⟩ : ∃ r ∈ g.survivors d sites, r.representation = key :=
    List.mem_map.1 (Ascending.mem_of_mem_ofList hkey)
  refine delivered_of_forall hr fun p hp hsame => ?_
  obtain ⟨hname, -, -⟩ := Representation.same_iff.1 hsame
  have hrequired : p.required = true := by
    rw [required_provider_iff_isDemanded hp, show p.name = r.name from hname]
    exact hnever.2
  rw [Bool.eq_false_iff]
  intro hnullable
  rw [((nullable_provider_iff hp).1 hnullable).1] at hrequired
  cases hrequired

/-- **Warnings are complete and truthful**: a table warns of nothing but requests that are outvoted
and representations that will never be null, and a pass keeps to what it warns of. -/
theorem warnings_complete_and_truthful :
    (∀ requests, WarnsExactly requests (warnings requests)) ∧
      ∀ g d sites p, (pass g d sites).outcome = .ok p →
        g.Truthful d sites (g.pass d sites).diagnostics p.providers := by
  refine ⟨fun requests => ?_, fun g d sites p h => ?_⟩
  · exact ⟨ParameterTable.severity_warnings, ParameterTable.exists_perm_warnings requests,
      ParameterTable.warnings_eq_nil_iff⟩
  · obtain ⟨hnamed, rfl⟩ := outcome_eq_ok_iff.1 h
    rw [pass_of_allNamed hnamed]
    exact
      { warnings_eq := filter_warning_finishedDiagnostics
        returns_null := by
          intro r hr w hwarns hphrase
          obtain ⟨hmixed, hdefault⟩ := ParameterTable.isMixed_of_null hwarns hphrase
          exact delivered_null hr hmixed hdefault
        default_applies := by
          intro r hr w hwarns hphrase
          exact delivered_default hr (ParameterTable.isMixed_of_default hwarns hphrase).2
        never_null := by
          intro key hkey w hwarns
          obtain ⟨hnever, -⟩ := hwarns
          exact ⟨List.IsSuffix.trans (by decide) Diagnostic.says_append,
            delivered_never_null hkey hnever⟩ }

/-- Two names that are asked for in conflicting ways: nobody demands the level, somebody the port. -/
def outvotedSites : List Site :=
  [ exampleSite "level" "LEVEL" .string (some "info") false,
    exampleSite "unsetLevel" "LEVEL" .string none true,
    exampleSite "quietLevel" "LEVEL" .string (some "warn") true,
    exampleSite "port" "PORT" (.primitive .int) none false,
    exampleSite "portText" "PORT" .string none true ]

theorem truthful_example :
    (exampleGenerator.pass exampleDomain outvotedSites).outcome =
        .ok (exampleGenerator.finished exampleDomain outvotedSites) ∧
      exampleGenerator.Truthful exampleDomain outvotedSites
        (exampleGenerator.pass exampleDomain outvotedSites).diagnostics
        (exampleGenerator.finished exampleDomain outvotedSites).providers ∧
      WarnsExactly (exampleGenerator.survivors exampleDomain outvotedSites)
        (warnings (exampleGenerator.survivors exampleDomain outvotedSites)) ∧
      (warnings (exampleGenerator.survivors exampleDomain outvotedSites)).map (·.element) =
        [some "unsetLevel", some "quietLevel", some "portText", some "portText"] ∧
      (exampleGenerator.finished exampleDomain outvotedSites).providers.map
          (fun p => (p.sites, p.required, p.nullable, p.default)) =
        [ (["unsetLevel"], false, true, none), (["level"], false, false, some "info"),
          (["quietLevel"], false, false, some "warn"), (["port"], true, false, none),
          (["portText"], true, false, none) ] := by
  have houtcome : (exampleGenerator.pass exampleDomain outvotedSites).outcome =
      .ok (exampleGenerator.finished exampleDomain outvotedSites) :=
    outcome_eq_ok_iff.2 ⟨by unfold AllNamed; decide, rfl⟩
  exact ⟨houtcome, warnings_complete_and_truthful.2 _ _ _ _ houtcome,
    warnings_complete_and_truthful.1 _, by decide +kernel, by decide +kernel⟩

end Generator

end Wiring
