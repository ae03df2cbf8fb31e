import Wiring.Proofs.Parameters.Consolidation
import Wiring.Proofs.Provider.Precedence

/-!
# First come, first served

Many representations may share one method name. Of those that can be converted the first in the
order of keys has the name; every later one is refused, with a report that names the first. So a
pass can be told without its loop: which representations have a provider, and what is reported about
each of the others.
-/

namespace Wiring.Generator

variable {g : Generator} {d : Domain} {sites : List Site}

/-- Whether a looked-up value can be converted to the type of a representation. -/
def Convertible (g : Generator) (d : Domain) (key : Representation) : Prop :=
  g.chain.resolve g.model key.type (d.sourceType key.type) ≠ none

/-- Why a representation is without a provider, given the providers of its pass: its type is out of
reach, or the provider with its method name is that of another representation. -/
def refusal? (g : Generator) (d : Domain) (ps : List Provider) (key : Representation) :
    Option Error :=
  match g.chain.resolve g.model key.type (d.sourceType key.type) with
  | none =>
    some (.conversionUnavailable key.name (d.sourceType key.type).text key.type.text)
  | some _ => do
    let previous ← ps.find? (·.methodName == methodName d key)
    if previous.representation = key then none
    else some (.providerNameCollision (methodName d key) key.text previous.representation.text)

/-- How a pass over some sites shares out the method names. -/
structure SharesOut (g : Generator) (d : Domain) (sites : List Site) (ds : List Diagnostic)
    (ps : List Provider) : Prop where
  ascending : Ascending.IsAscending Representation.compare (ps.map Provider.representation)
  nodup_representation : (ps.map Provider.representation).Nodup
  nodup_methodName : (ps.map Provider.methodName).Nodup
  methodName_eq : ∀ p ∈ ps, p.methodName = methodName d p.representation
  mem_table : ∀ p ∈ ps, p.representation ∈ (g.table d sites).representations.map (·.key)
  /-- A representation has a provider exactly if it is the first with its method name of those that
  can be converted. -/
  provided_iff : ∀ key ∈ (g.table d sites).representations.map (·.key),
    (∃ p ∈ ps, p.representation = key) ↔
      g.Convertible d key ∧
        ∀ other ∈ (g.table d sites).representations.map (·.key), other.compare key = .lt →
          g.Convertible d other → methodName d other ≠ methodName d key
  /-- A collision names the representation before it whose provider has the method name. -/
  collision : ∀ key ∈ (g.table d sites).representations.map (·.key), ∀ name text previous,
    g.refusal? d ps key = some (.providerNameCollision name text previous) →
      g.Convertible d key ∧ name = methodName d key ∧ text = key.text ∧
        ∃ p ∈ ps, p.methodName = name ∧ p.representation.text = previous ∧
          p.representation.compare key = .lt
  /-- Behind the reports about sites and the warnings there is one report for each representation
  that is refused. -/
  diagnostics_eq : ds = g.expansionErrors d sites ++ ParameterTable.warnings (g.survivors d sites) ++
    (g.table d sites).representations.filterMap fun r =>
      (g.refusal? d ps r.key).map fun reason => ⟨.error, reason.message, r.element?⟩

/-! ## Providers in order -/

theorem mem_preceding_iff {key : Representation} {p : Provider} :
    p ∈ g.preceding d sites key ↔
      p ∈ (g.finished d sites).providers ∧ p.representation.compare key = .lt := by
  rw [preceding, List.mem_filter, beq_iff_eq]

theorem methodName_of_mem_providers {p : Provider} (h : p ∈ (g.finished d sites).providers) :
    p.methodName = methodName d p.representation := by
  obtain ⟨r, hr⟩ := mem_providers_iff.1 h
  obtain ⟨conversion, rfl⟩ := emittedFrom_of_mem_settled hr
  rfl

/-- A provider is made for a representation that can be converted and whose method name is free. -/
theorem follows_of_mem_providers {p : Provider} (h : p ∈ (g.finished d sites).providers) :
    g.Convertible d p.representation ∧
      ∀ q ∈ g.preceding d sites p.representation, q.methodName ≠ p.methodName := by
  obtain ⟨r, hr⟩ := mem_providers_iff.1 h
  cases follows_of_mem_settled hr with
  | provider conversion hresolve hfree =>
    exact ⟨Option.ne_none_iff_exists'.2 ⟨conversion, hresolve⟩, hfree⟩

/-- **Method names are distinct**: of two providers the second found the name of the first taken. -/
theorem nodup_methodNames : ((g.finished d sites).providers.map Provider.methodName).Nodup := by
  refine List.pairwise_map.2 ((List.pairwise_map.1 isAscending_representations).imp_of_mem ?_)
  intro p q hp hq hlt
  exact (follows_of_mem_providers hq).2 p (mem_preceding_iff.2 ⟨hp, hlt⟩)

/-- A method name has one provider. -/
theorem find?_methodName {p : Provider} {name : String} (h : p ∈ (g.finished d sites).providers)
    (hname : p.methodName = name) :
    (g.finished d sites).providers.find? (·.methodName == name) = some p := by
  refine find?_eq_some_of_forall h (beq_iff_eq.2 hname) fun q hq hqname => ?_
  exact List.inj_on_of_nodup_map nodup_methodNames hq h ((beq_iff_eq.1 hqname).trans hname.symm)

/-! ## Representations -/

theorem mem_keys_iff_settled {key : Representation} :
    key ∈ (g.table d sites).representations.map (·.key) ↔
      ∃ r e, (r, e) ∈ g.settled d sites ∧ r.key = key := by
  rw [← map_fst_settled, List.map_map, List.mem_map]
  exact ⟨fun ⟨⟨r, e⟩, h, hkey⟩ => ⟨r, e, h, hkey⟩, fun ⟨r, e, h, hkey⟩ => ⟨(r, e), h, hkey⟩⟩

/-- The name of a representation that can be converted is taken by its own provider or by one before
it. -/
theorem exists_provider_of_convertible {key : Representation}
    (hkey : key ∈ (g.table d sites).representations.map (·.key)) (h : g.Convertible d key) :
    ∃ p ∈ (g.finished d sites).providers, p.methodName = methodName d key ∧
      (p.representation = key ∨ p.representation.compare key = .lt) := by
  obtain ⟨r, e, hr, rfl⟩ := mem_keys_iff_settled.1 hkey
  cases follows_of_mem_settled hr with
  | provider conversion _ _ => exact ⟨_, mem_providers_iff.2 ⟨r, hr⟩, rfl, .inl rfl⟩
  | skipped reason hskip =>
    cases hskip with
    | unconvertible hnone => exact absurd hnone h
    | taken previous hprevious hname =>
      obtain ⟨hmem, hlt⟩ := mem_preceding_iff.1 hprevious
      exact ⟨previous, hmem, hname, .inr hlt⟩

theorem mem_table_of_mem_providers {p : Provider} (h : p ∈ (g.finished d sites).providers) :
    p.representation ∈ (g.table d sites).representations.map (·.key) := by
  obtain ⟨r, hr⟩ := mem_providers_iff.1 h
  obtain ⟨conversion, rfl⟩ := emittedFrom_of_mem_settled hr
  exact mem_keys_iff_settled.2 ⟨r, _, hr, rfl⟩

/-- **Which representations have a provider.** -/
theorem exists_provider_iff {key : Representation}
    (hkey : key ∈ (g.table d sites).representations.map (·.key)) :
    (∃ p ∈ (g.finished d sites).providers, p.representation = key) ↔
      g.Convertible d key ∧
        ∀ other ∈ (g.table d sites).representations.map (·.key), other.compare key = .lt →
          g.Convertible d other → methodName d other ≠ methodName d key := by
  constructor
  · rintro ⟨p, hp, rfl⟩
    obtain ⟨hconvertible, hfree⟩ := follows_of_mem_providers hp
    refine ⟨hconvertible, fun other hother hlt hconv hname => ?_⟩
    -- whoever has the name of the other comes before the provider as well
    obtain ⟨q, hq, hqname, hqother⟩ := exists_provider_of_convertible hother hconv
    have hqlt : q.representation.compare p.representation = .lt := by
      rcases hqother with heq | hqother
      · rwa [heq]
      · exact Std.TransCmp.lt_trans hqother hlt
    refine hfree q (mem_preceding_iff.2 ⟨hq, hqlt⟩) ?_
    rw [hqname, hname, methodName_of_mem_providers hp]
  · rintro ⟨hconvertible, hfirst⟩
    obtain ⟨p, hp, hname, heq | hlt⟩ := exists_provider_of_convertible hkey hconvertible
    · exact ⟨p, hp, heq⟩
    · rw [methodName_of_mem_providers hp] at hname
      exact absurd hname (hfirst _ (mem_table_of_mem_providers hp) hlt
        (follows_of_mem_providers hp).1)

/-! ## Reports -/

/-- Of representations that cannot be converted nothing else is reported, whatever names are taken. -/
theorem forall₂_emit_unconvertible (taken : List (String × Representation))
    (rs : List RepresentationGroup) :
    List.Forall₂ (fun r e => ¬g.Convertible d r.key →
        e = .skipped (.conversionUnavailable r.key.name (d.sourceType r.key.type).text
          r.key.type.text) r.element?)
      rs (g.emit d taken rs) := by
  induction rs generalizing taken with
  | nil => exact .nil
  | cons r rs ih =>
    rw [emit]
    dsimp only
    cases hresolve : g.chain.resolve g.model r.key.type (d.sourceType r.key.type) with
    | none => exact .cons (fun _ => rfl) (ih taken)
    | some conversion =>
      have hconvertible : g.Convertible d r.key := by simp [Convertible, hresolve]
      dsimp only
      cases taken.lookup (g.provider d r conversion).methodName with
      | some previous => exact .cons (fun h => absurd hconvertible h) (ih taken)
      | none => exact .cons (fun h => absurd hconvertible h) (ih _)

/-- A representation is only refused for its method name if it can be converted. -/
theorem convertible_of_collision {r : RepresentationGroup} {name text previous : String}
    {element : Option String}
    (h : (r, .skipped (.providerNameCollision name text previous) element) ∈ g.settled d sites) :
    g.Convertible d r.key := by
  have hall := forall₂_emit_unconvertible (g := g) (d := d) [] (g.table d sites).representations
  by_contra hnot
  have heq := (List.forall₂_iff_zip.1 hall).2 h hnot
  cases heq

/-- **What is reported about a representation** can be told from the providers. -/
theorem diagnostic?_of_mem_settled {r : RepresentationGroup} {e : Emission}
    (h : (r, e) ∈ g.settled d sites) :
    e.diagnostic? = (g.refusal? d (g.finished d sites).providers r.key).map
      fun reason => ⟨.error, reason.message, r.element?⟩ := by
  cases follows_of_mem_settled h with
  | provider conversion hresolve _ =>
    have hp : g.provider d r conversion ∈ (g.finished d sites).providers :=
      mem_providers_iff.2 ⟨r, h⟩
    have hfind : (g.finished d sites).providers.find? (·.methodName == methodName d r.key) =
        some (g.provider d r conversion) := find?_methodName hp rfl
    have hself : (g.provider d r conversion).representation = r.key := rfl
    simp [refusal?, hresolve, hfind, hself, Emission.diagnostic?]
  | skipped reason hskip =>
    cases hskip with
    | unconvertible hnone => simp [refusal?, hnone, Emission.diagnostic?]
    | taken previous hprevious hname =>
      obtain ⟨hmem, hlt⟩ := mem_preceding_iff.1 hprevious
      obtain ⟨conversion, hresolve⟩ :=
        Option.ne_none_iff_exists'.1 (convertible_of_collision h)
      have hfind : (g.finished d sites).providers.find? (·.methodName == methodName d r.key) =
          some previous := find?_methodName hmem hname
      have hother : previous.representation ≠ r.key := by
        intro heq
        have hself : r.key.compare r.key = .eq := Std.ReflCmp.compare_self
        rw [heq, hself] at hlt
        cases hlt
      have hname : previous.methodName = methodName d r.key := hname
      simp [refusal?, hresolve, hfind, hother, hname, Emission.diagnostic?]

/-- A collision is with the provider that has the method name, which comes first. -/
theorem exists_previous_of_refusal? {key : Representation} {name text previous : String}
    (hkey : key ∈ (g.table d sites).representations.map (·.key))
    (h : g.refusal? d (g.finished d sites).providers key =
      some (.providerNameCollision name text previous)) :
    g.Convertible d key ∧ name = methodName d key ∧ text = key.text ∧
      ∃ p ∈ (g.finished d sites).providers, p.methodName = name ∧
        p.representation.text = previous ∧ p.representation.compare key = .lt := by
  unfold refusal? at h
  split at h
  · cases h
  · next conversion hresolve =>
    have hconvertible : g.Convertible d key := by simp [Convertible, hresolve]
    obtain ⟨p, hp, hname, hplace⟩ := exists_provider_of_convertible hkey hconvertible
    rw [find?_methodName hp hname] at h
    dsimp only [Option.bind_eq_bind, Option.bind_some] at h
    split at h
    · cases h
    · next hother =>
      obtain ⟨rfl, rfl, rfl⟩ := Error.providerNameCollision.inj (Option.some.inj h)
      exact ⟨hconvertible, rfl, rfl, p, hp, hname, rfl, hplace.resolve_left hother⟩

theorem filterMap_diagnostic?_emissions :
    (g.emissions d sites).filterMap Emission.diagnostic? =
      (g.table d sites).representations.filterMap fun r =>
        (g.refusal? d (g.finished d sites).providers r.key).map fun reason =>
          ⟨.error, reason.message, r.element?⟩ := by
  rw [← map_snd_settled, ← map_fst_settled, List.filterMap_map, List.filterMap_map]
  exact List.filterMap_congr fun _ h => diagnostic?_of_mem_settled h

/-- **The first representation with a method name has the provider**, and the reports about the
others name it. -/
theorem sharesOut_of_outcome {p : Pass} (h : (g.pass d sites).outcome = .ok p) :
    g.SharesOut d sites (g.pass d sites).diagnostics p.providers := by
  obtain ⟨hnamed, rfl⟩ := outcome_eq_ok_iff.1 h
  rw [pass_of_allNamed hnamed]
  exact
    { ascending := isAscending_representations
      nodup_representation := isAscending_representations.nodup
      nodup_methodName := nodup_methodNames
      methodName_eq := fun p hp => methodName_of_mem_providers hp
      mem_table := fun p hp => mem_table_of_mem_providers hp
      provided_iff := fun key hkey => exists_provider_iff hkey
      collision := fun key hkey name text previous h => exists_previous_of_refusal? hkey h
      diagnostics_eq := by
        rw [← filterMap_diagnostic?_emissions]
        rfl }

/-! ## Three names for one method

Three names that are spelled alike in upper camel case, and a fourth whose type is out of reach. -/

def collidingSites : List Site :=
  [ exampleSite "lower" "port" .string none false,
    exampleSite "upper" "PORT" .string none false,
    exampleSite "host" "HOST" (.declared "app.Host" []) none true,
    exampleSite "capital" "Port" .string none true ]

theorem outcome_collidingSites :
    (exampleGenerator.pass exampleDomain collidingSites).outcome =
      .ok (exampleGenerator.finished exampleDomain collidingSites) :=
  outcome_eq_ok_iff.2 ⟨by unfold AllNamed; decide, rfl⟩

theorem sharesOut_example :
    (exampleGenerator.pass exampleDomain collidingSites).outcome =
        .ok (exampleGenerator.finished exampleDomain collidingSites) ∧
      exampleGenerator.SharesOut exampleDomain collidingSites
        (exampleGenerator.pass exampleDomain collidingSites).diagnostics
        (exampleGenerator.finished exampleDomain collidingSites).providers ∧
      (exampleGenerator.finished exampleDomain collidingSites).providers.map
          (fun p => (p.methodName, p.name)) =
        [("provideEnvHost", "HOST"), ("provideEnvPort", "PORT")] ∧
      (exampleGenerator.pass exampleDomain collidingSites).diagnostics.map (·.message) =
        [ (Error.conversionUnavailable "HOST" "java.lang.String" "app.Host").message,
          (Error.providerNameCollision "provideEnvPort" "java.lang.String Port"
            "java.lang.String PORT").message,
          (Error.providerNameCollision "provideEnvPort" "java.lang.String port"
            "java.lang.String PORT").message ] :=
  ⟨outcome_collidingSites, sharesOut_of_outcome outcome_collidingSites, by decide +kernel,
    by decide +kernel⟩

end Wiring.Generator
