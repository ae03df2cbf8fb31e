import Wiring.Proofs.Parameters.Consolidation
import Wiring.Proofs.Provider.Precedence

/-!
# Derived providers and lookups

A derived provider converts what a lookup yields, so the representation at the lookup's type stands
in the table beside it. Whether that representation has a provider of its own is another matter: a
representation before it may have taken its method name, and then it is reported and left out while
the derived provider stays. Nothing else can go wrong where the types are such as can be parsed.
-/

namespace Wiring

/-- A chain that begins with the standard one converts a type to itself by doing nothing. Chains
grow at their end, so every chain that is made from the standard one begins with it. -/
theorem Conversion.Chain.resolve_self {chain : Chain} (h : Chain.standard <+: chain) (m : Model)
    (t : TypeRef) : chain.resolve m t t = some .identity := by
  obtain ⟨more, rfl⟩ := h
  rw [resolve]
  simp [standard, Strategy.identity]

/-- The representation that a lookup for the provider yields. -/
def Provider.lookup (p : Provider) : Representation := ⟨p.sourceType, p.name, p.default⟩

namespace Generator

variable {g : Generator} {d : Domain} {sites : List Site}

/-- What becomes of the lookup that a provider is derived from. -/
inductive LookedUp (g : Generator) (d : Domain) (sites : List Site) (ds : List Diagnostic)
    (ps : List Provider) (derived : Provider) : Prop
  /-- It has a provider, which hands on what it looks up. -/
  | provided (q : Provider) (hmem : q ∈ ps) (hname : q.name = derived.name)
      (hdefault : q.default = derived.default) (htype : q.providedType = derived.sourceType)
      (hconversion : q.conversion = .identity)
  /-- It has none, for a provider before it has its method name; this is reported. -/
  | taken (previous : Provider) (hmem : previous ∈ ps)
      (hbefore : previous.representation.compare derived.lookup = .lt)
      (hname : previous.methodName = methodName d derived.lookup)
      (hnone : ∀ q ∈ ps, q.representation ≠ derived.lookup) (element : Option String)
      (hreport : ⟨.error, (Error.providerNameCollision previous.methodName derived.lookup.text
        previous.representation.text).message, element⟩ ∈ ds)
  /-- Its place in the table is that of a type that no text denotes, but that has its text. -/
  | displaced (r : Request) (hmem : r ∈ g.survivors d sites) (hname : r.name = derived.name)
      (hdefault : r.default = derived.default)
      (htext : r.site.providedType.text = derived.sourceType.text)
      (hunparsed : ¬r.site.providedType.IsParsed)

/-- A representation at the type of a lookup needs no conversion, so it has a provider, or else its
method name is taken. -/
theorem lookedUp_of_mem_settled {r : RepresentationGroup} {e : Emission} {derived : Provider}
    (hchain : Conversion.Chain.standard <+: g.chain) (he : (r, e) ∈ g.settled d sites)
    (hkey : r.key = derived.lookup) (hsource : d.sourceType r.key.type = r.key.type) :
    g.LookedUp d sites (g.finishedDiagnostics d sites) (g.finished d sites).providers derived := by
  have hresolve :
      g.chain.resolve g.model r.key.type (d.sourceType r.key.type) = some .identity := by
    rw [hsource]
    exact Conversion.Chain.resolve_self hchain _ _
  cases follows_of_mem_settled he with
  | provider conversion hconversion _ =>
    obtain rfl : conversion = .identity := Option.some.inj (hconversion.symm.trans hresolve)
    exact .provided _ (mem_providers_iff.2 ⟨r, he⟩) (congrArg Representation.name hkey)
      (congrArg Representation.default hkey) (congrArg Representation.type hkey) rfl
  | skipped reason hskip =>
    cases hskip with
    | unconvertible hnone =>
      have habsurd := hnone.symm.trans hresolve
      cases habsurd
    | taken previous hprevious hname =>
      obtain ⟨hmem, hbefore⟩ := List.mem_filter.1 hprevious
      have hreport := report_mem_of_skipped he
      rw [hkey] at hbefore hname hreport
      refine .taken previous hmem (beq_iff_eq.1 hbefore) hname ?_ _ hreport
      intro q hq hqr
      cases provider_eq_of_mem_settled he hq (hqr.trans hkey.symm)

/-- **Every derived provider has its lookup provider**, unless the method name of that one is
taken. -/
theorem lookedUp_of_outcome {p : Pass} (hchain : Conversion.Chain.standard <+: g.chain)
    (h : (g.pass d sites).outcome = .ok p) :
    ∀ q ∈ p.providers, q.providedType ≠ q.sourceType →
      g.LookedUp d sites (g.pass d sites).diagnostics p.providers q := by
  obtain ⟨hnamed, rfl⟩ := outcome_eq_ok_iff.1 h
  rw [pass_of_allNamed hnamed]
  intro derived hderived _
  obtain ⟨r, hr⟩ := mem_providers_iff.1 hderived
  obtain ⟨derivation, rfl⟩ := emittedFrom_of_mem_settled hr
  obtain ⟨hkey, -⟩ := group_of_mem_settled hr
  rcases ParameterTable.sibling_mem_keys_or hkey with
    hsibling | ⟨x, hx, hname, hdefault, htext, hno⟩
  · obtain ⟨e, he⟩ := exists_mem_settled hsibling
    exact lookedUp_of_mem_settled hchain he rfl (d.sourceType_sourceType r.key.type)
  · exact .displaced x hx hname hdefault htext hno

/-! ## A lookup without a provider -/

/-- Every derived provider stands beside a provider for its lookup. -/
def HasLookups (ps : List Provider) : Prop :=
  ∀ p ∈ ps, p.providedType ≠ p.sourceType →
    ∃ q ∈ ps, q.name = p.name ∧ q.default = p.default ∧ q.providedType = p.sourceType ∧
      q.conversion = .identity

instance : DecidablePred HasLookups := fun ps =>
  inferInstanceAs (Decidable (∀ p ∈ ps, p.providedType ≠ p.sourceType →
    ∃ q ∈ ps, q.name = p.name ∧ q.default = p.default ∧ q.providedType = p.sourceType ∧
      q.conversion = .identity))

/-- Two names that are spelled alike in upper camel case, and one that is not. -/
def alikeSites : List Site :=
  [ exampleSite "upper" "PORT" .string none false,
    exampleSite "lower" "port" (.primitive .int) none false,
    exampleSite "timeout" "TIMEOUT" (.primitive .long) none false ]

/-- A domain of several values. -/
def listDomain : Domain := { exampleDomain with multiValued := true }

/-- A list, and a class whose name is the text of a list of strings. -/
def lookalikeSites : List Site :=
  [ exampleSite "codes" "CODES" (.listOf (.declared "java.lang.Character" [])) none false,
    exampleSite "lookalike" "CODES" (.declared "java.util.List<java.lang.String>" []) none false ]

theorem outcome_alikeSites :
    (exampleGenerator.pass exampleDomain alikeSites).outcome =
      .ok (exampleGenerator.finished exampleDomain alikeSites) :=
  outcome_eq_ok_iff.2 ⟨by unfold AllNamed; decide, rfl⟩

theorem outcome_lookalikeSites :
    (exampleGenerator.pass listDomain lookalikeSites).outcome =
      .ok (exampleGenerator.finished listDomain lookalikeSites) :=
  outcome_eq_ok_iff.2 ⟨by unfold AllNamed; decide, rfl⟩

/-- A derived provider without its lookup: where the method name of the lookup is taken, and where
the lookup is displaced. -/
theorem lookup_missing :
    (exampleGenerator.pass exampleDomain alikeSites).outcome =
        .ok (exampleGenerator.finished exampleDomain alikeSites) ∧
      ¬HasLookups (exampleGenerator.finished exampleDomain alikeSites).providers ∧
      (exampleGenerator.pass listDomain lookalikeSites).outcome =
        .ok (exampleGenerator.finished listDomain lookalikeSites) ∧
      ¬HasLookups (exampleGenerator.finished listDomain lookalikeSites).providers :=
  ⟨outcome_alikeSites, by decide +kernel, outcome_lookalikeSites, by decide +kernel⟩

/-- One derived provider whose lookup is taken, and one whose lookup is provided. -/
theorem lookedUp_example :
    Conversion.Chain.standard <+: exampleGenerator.chain ∧
      (exampleGenerator.pass exampleDomain alikeSites).outcome =
        .ok (exampleGenerator.finished exampleDomain alikeSites) ∧
      ∀ name ∈ ["provideEnvPortAsInt", "provideEnvTimeoutAsLong"],
        ∃ q ∈ (exampleGenerator.finished exampleDomain alikeSites).providers,
          q.methodName = name ∧ q.providedType ≠ q.sourceType ∧
            exampleGenerator.LookedUp exampleDomain alikeSites
              (exampleGenerator.pass exampleDomain alikeSites).diagnostics
              (exampleGenerator.finished exampleDomain alikeSites).providers q := by
  have hchain : Conversion.Chain.standard <+: exampleGenerator.chain := List.prefix_refl _
  have hderived : ∀ name ∈ ["provideEnvPortAsInt", "provideEnvTimeoutAsLong"],
      ∃ q ∈ (exampleGenerator.finished exampleDomain alikeSites).providers,
        q.methodName = name ∧ q.providedType ≠ q.sourceType := by decide +kernel
  refine ⟨hchain, outcome_alikeSites, fun name hname => ?_⟩
  obtain ⟨q, hq, hmethod, hne⟩ := hderived name hname
  exact ⟨q, hq, hmethod, hne, lookedUp_of_outcome hchain outcome_alikeSites q hq hne⟩

end Generator

end Wiring
