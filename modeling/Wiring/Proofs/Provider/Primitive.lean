import Wiring.Proofs.Provider.Delivery
import Wiring.Proofs.Provider.Policy
import Wiring.Proofs.Walk.Wrapper

/-!
# Primitives and null

A primitive is never null, so a site of a primitive type that is marked nullable is refused. A
wrapper around a primitive is not refused, although what its provider delivers is the primitive
itself: this is the one way to a nullable provider of a primitive.
-/

namespace Wiring

/-- A site that delivers a primitive and accepts null has it in a wrapper. -/
theorem Site.isWrapper_of_nullable {p : InjectionPoint} {s : Site} (h : Site.ofPoint p = .ok s)
    (hprimitive : s.providedType.isPrimitive = true) (hnullable : s.nullable = true) :
    s.declaredType.isWrapper = true := by
  obtain ⟨_, hrefused, rfl⟩ := Site.ofPoint_eq_ok_iff.1 h
  by_contra hno
  -- what is no wrapper provides itself, so the site is declared as the primitive
  rw [TypeRef.provided_of_not_isWrapper (Bool.not_eq_true _ ▸ hno)] at hprimitive
  have hstyle : (ProvisionStyle.classify p.type).1 = .primitive := by
    rw [ProvisionStyle.classify, if_pos hprimitive]
  rw [hstyle] at hrefused
  simp only [hstyle, ProvisionStyle.isNullable, Bool.or_eq_true] at hnullable
  rcases hnullable with hmarked | himplicit
  · exact hrefused ⟨hmarked, rfl⟩
  · cases himplicit

/-- No lookup yields a primitive. -/
theorem Domain.isPrimitive_sourceType (d : Domain) (target : TypeRef) :
    (d.sourceType target).isPrimitive = false := by
  unfold Domain.sourceType
  split <;> rfl

namespace Generator

variable {g : Generator} {d : Domain} {root : String} {sites : List Site}

/-- Whether no provider of a primitive is nullable. -/
def NoNullPrimitive (ps : List Provider) : Prop :=
  ∀ p ∈ ps, p.providedType.isPrimitive = true → p.nullable = false

instance : DecidablePred NoNullPrimitive := fun ps =>
  inferInstanceAs (Decidable (∀ p ∈ ps, p.providedType.isPrimitive = true → p.nullable = false))

/-- A provider of a primitive was asked for. -/
theorem exists_request_of_isPrimitive {p : Provider} (hp : p ∈ (g.finished d sites).providers)
    (hprimitive : p.providedType.isPrimitive = true) :
    ∃ r ∈ g.survivors d sites, r.representation = p.representation := by
  obtain ⟨group, hgroup⟩ := mem_providers_iff.1 hp
  obtain ⟨conversion, rfl⟩ := emittedFrom_of_mem_settled hgroup
  obtain ⟨hkey, _⟩ := group_of_mem_settled hgroup
  rcases List.mem_append.1 (Ascending.mem_of_mem_ofList hkey) with hkey | hkey
  · obtain ⟨r, hr, hrepresentation⟩ := List.mem_map.1 (Ascending.mem_of_mem_ofList hkey)
    exact ⟨r, hr, hrepresentation⟩
  · obtain ⟨requested, _, hsibling⟩ := List.mem_map.1 hkey
    have htype : d.sourceType requested.type = group.key.type :=
      congrArg Representation.type hsibling
    have hno := d.isPrimitive_sourceType requested.type
    rw [htype] at hno
    exact absurd hprimitive (Bool.eq_false_iff.1 hno)

/-- A survivor of collected sites accepts null for a primitive in a wrapper only. -/
theorem isWrapper_of_mem_survivors (hsites : g.model.sites root = .ok sites) {r : Request}
    (hr : r ∈ g.survivors d sites) (hprimitive : r.site.providedType.isPrimitive = true)
    (hnullable : r.site.nullable = true) : r.site.declaredType.isWrapper = true := by
  obtain ⟨s, hs, _, hrequest⟩ := mem_survivors_iff.1 hr
  rw [site_of_request hrequest] at hprimitive hnullable ⊢
  obtain ⟨point, _, hpoint⟩ := (Model.mem_sites_iff hsites).1 hs
  exact Site.isWrapper_of_nullable hpoint hprimitive hnullable

theorem nullable_primitive_iff (hsites : g.model.sites root = .ok sites) {p : Provider}
    (hp : p ∈ (g.finished d sites).providers) (hprimitive : p.providedType.isPrimitive = true) :
    p.nullable = true ↔
      p.required = false ∧
        ∃ r ∈ g.survivors d sites, r.representation = p.representation ∧ r.default = none ∧
          r.site.nullable = true ∧ r.site.declaredType.isWrapper = true := by
  rw [nullable_provider_iff hp]
  constructor
  · rintro ⟨hrequired, hdefault⟩
    obtain ⟨r, hr, hrepresentation⟩ := exists_request_of_isPrimitive hp hprimitive
    have htype : r.site.providedType = p.providedType :=
      congrArg Representation.type hrepresentation
    have hname : r.name = p.name := congrArg Representation.name hrepresentation
    have hnone : r.default = none :=
      (congrArg Representation.default hrepresentation).trans hdefault
    have hnullable : r.site.nullable = true := by
      -- or else the request would demand a value
      by_contra hno
      rw [Bool.not_eq_true] at hno
      rw [(required_provider_iff hp).2 ⟨r, hr, hname, hno, hnone⟩] at hrequired
      cases hrequired
    exact ⟨hrequired, r, hr, hrepresentation, hnone, hnullable,
      isWrapper_of_mem_survivors hsites hr (htype ▸ hprimitive) hnullable⟩
  · rintro ⟨hrequired, r, _, hrepresentation, hnone, _⟩
    exact ⟨hrequired, (congrArg Representation.default hrepresentation).symm.trans hnone⟩

/-- When the providers of primitives are nullable, given the sites of a pass. -/
structure PrimitivePolicy (g : Generator) (d : Domain) (sites : List Site) (ps : List Provider) :
    Prop where
  /-- A nullable one is not required, and some site without a default asks for it in a wrapper. -/
  nullable_iff : ∀ p ∈ ps, p.providedType.isPrimitive = true →
    (p.nullable = true ↔
      p.required = false ∧
        ∃ r ∈ g.survivors d sites, r.representation = p.representation ∧ r.default = none ∧
          r.site.nullable = true ∧ r.site.declaredType.isWrapper = true)
  /-- Where no site of the domain has a primitive in a wrapper, none is nullable. -/
  noNullPrimitive :
    (∀ s ∈ sites, isQualified d s = true → s.providedType.isPrimitive = true →
        s.declaredType.isWrapper = false) →
      NoNullPrimitive ps

/-- **A provider of a primitive is nullable only if a site has the primitive in a wrapper.** -/
theorem primitivePolicy_of_run {p : Pass} (h : (g.run d root).outcome = .ok p) :
    ∃ sites, g.model.sites root = .ok sites ∧ g.PrimitivePolicy d sites p.providers := by
  obtain ⟨sites, hsites, _, rfl⟩ := run_eq_ok_iff.1 h
  refine ⟨sites, hsites, fun q hq hprimitive => nullable_primitive_iff hsites hq hprimitive, ?_⟩
  intro hbare q hq hprimitive
  by_contra hno
  rw [Bool.not_eq_false, nullable_primitive_iff hsites hq hprimitive] at hno
  obtain ⟨_, r, hr, hrepresentation, _, _, hwrapper⟩ := hno
  obtain ⟨s, hs, hqualified, hrequest⟩ := mem_survivors_iff.1 hr
  obtain rfl := site_of_request hrequest
  have htype : r.site.providedType = q.providedType := congrArg Representation.type hrepresentation
  rw [hbare r.site hs hqualified (htype ▸ hprimitive)] at hwrapper
  cases hwrapper

/-! ## A primitive in a wrapper -/

/-- A component whose configuration has one field, a port. -/
def portModel (type : TypeRef) : Model :=
  Model.empty.insertAll
    [ { name := "app.App", kind := .component
        methods := [{ name := "config", returns := .declared "app.Config" [] }] },
      { name := "app.Config"
        fields :=
          [ { name := "port", type, inject := true
              annotations := [.named "EnvironmentVariable" "PORT" none] } ] } ]

def optionalPort : TypeRef := .declared TypeRef.optionalName [.primitive .int]

def portGenerator (type : TypeRef) : Generator := { exampleGenerator with model := portModel type }

def componentSite : Site where
  element := "provision method app.App.config()"
  kind := .provisionResult
  style := .verbatim
  declaredType := .declared "app.Config" []
  providedType := .declared "app.Config" []
  qualifier := none
  annotations := []
  nullable := false

def optionalSites : List Site :=
  [ componentSite,
    { exampleSite "field app.Config.port" "PORT" (.primitive .int) none true with
      style := .optional
      declaredType := optionalPort } ]

theorem sites_optionalPort : (portModel optionalPort).sites "app.App" = .ok optionalSites := by
  cbv

theorem run_optionalPort :
    ((portGenerator optionalPort).run exampleDomain "app.App").outcome =
      .ok ((portGenerator optionalPort).finished exampleDomain optionalSites) :=
  run_eq_ok_iff.2 ⟨_, sites_optionalPort, by unfold AllNamed; decide, rfl⟩

/-- An optional `int` has a nullable provider of `int`. -/
theorem nullable_primitive :
    ((portGenerator optionalPort).run exampleDomain "app.App").outcome =
        .ok ((portGenerator optionalPort).finished exampleDomain optionalSites) ∧
      ¬NoNullPrimitive ((portGenerator optionalPort).finished exampleDomain optionalSites).providers :=
  ⟨run_optionalPort, by decide +kernel⟩

theorem primitivePolicy_example :
    ((portGenerator optionalPort).run exampleDomain "app.App").outcome =
        .ok ((portGenerator optionalPort).finished exampleDomain optionalSites) ∧
      ∃ sites, (portModel optionalPort).sites "app.App" = .ok sites ∧
        (portGenerator optionalPort).PrimitivePolicy exampleDomain sites
          ((portGenerator optionalPort).finished exampleDomain optionalSites).providers :=
  ⟨run_optionalPort, primitivePolicy_of_run run_optionalPort⟩

end Generator

end Wiring
