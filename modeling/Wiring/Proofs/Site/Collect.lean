import Wiring.Proofs.Order.UntilFailure
import Wiring.Proofs.Walk.Traversal
import Wiring.Site.Collect

/-!
# Collected sites

The sites below a root are those at the points of its walk, one for each. They are collected if the
walk does not fail and no point is refused; any error says that the injection graph is malformed.
-/

namespace Wiring

variable {m : Model} {root : String} {e : Error} {p : InjectionPoint} {s : Site}

/-! ## Sites and points -/

/-- Which points have a site, and which site that is. -/
theorem Site.ofPoint_eq_ok_iff :
    Site.ofPoint p = .ok s ↔
      (p.annotations.filter (·.qualifier)).length ≤ 1 ∧
        ¬(p.annotations.any (·.isNullable) = true ∧
          (ProvisionStyle.classify p.type).1 = .primitive) ∧
        s =
          { element := p.element
            kind := p.kind
            style := (ProvisionStyle.classify p.type).1
            declaredType := p.type
            providedType := p.type.provided
            qualifier := (p.annotations.filter (·.qualifier)).head?
            annotations := p.annotations
            nullable := p.annotations.any (·.isNullable) ||
              (ProvisionStyle.classify p.type).1.isNullable } := by
  unfold Site.ofPoint
  dsimp only
  split
  · next hmany => simp [Nat.not_le.2 hmany]
  · next hone =>
    split
    · next hnull =>
      rw [Bool.and_eq_true, beq_iff_eq] at hnull
      exact ⟨nofun, fun h => absurd hnull h.2.1⟩
    · next hnull =>
      rw [Bool.and_eq_true, beq_iff_eq] at hnull
      rw [Except.ok.injEq, eq_comm]
      exact ⟨fun h => ⟨Nat.not_lt.1 hone, hnull, h⟩, fun h => h.2.2⟩

theorem Site.element_eq_of_ofPoint (h : Site.ofPoint p = .ok s) : s.element = p.element := by
  obtain ⟨_, _, rfl⟩ := Site.ofPoint_eq_ok_iff.1 h
  rfl

theorem Site.isStructural_of_ofPoint (h : Site.ofPoint p = .error e) : e.isStructural = true := by
  unfold Site.ofPoint at h
  dsimp only at h
  split at h
  · cases h
    rfl
  · split at h
    · cases h
      rfl
    · cases h

namespace Model

/-! ## Walks that fail -/

theorem isStructural_of_component? (h : m.component? root = .error e) : e.isStructural = true := by
  unfold component? at h
  split at h
  · cases h
    rfl
  · split at h
    · cases h
    · cases h
      rfl

theorem isStructural_of_module? {r : ModuleRef} (h : m.module? r = .error e) :
    e.isStructural = true := by
  unfold module? at h
  split at h
  · cases h
    rfl
  · split at h
    · cases h
    · cases h
      rfl

theorem isStructural_of_walk (h : (m.walk root).failure = some e) : e.isStructural = true := by
  unfold walk at h
  split at h
  · next hroot =>
    cases h
    exact isStructural_of_component? hroot
  · dsimp only at h
    split at h
    · next hmodules =>
      cases h
      obtain ⟨r, _, hr⟩ := exists_of_untilFailure_eq_some hmodules
      exact isStructural_of_module? hr
    · cases h

/-! ## Collections -/

/-- The points that the walk from a root comes to. -/
def points (m : Model) (root : String) : List InjectionPoint :=
  (m.walk root).events.flatMap Walk.Event.points

/-- **What is collected** are the sites of the points. -/
theorem sites_eq_ok_iff {sites : List Site} :
    m.sites root = .ok sites ↔
      (m.walk root).failure = none ∧
        List.Forall₂ (fun p s => Site.ofPoint p = .ok s) (m.points root) sites := by
  rw [Model.sites, Walk.sites, bind_eq_ok_iff]
  simp only [mapM_eq_ok_iff]
  constructor
  · rintro ⟨sites', hsites', h⟩
    split at h
    · next hwalk =>
      cases h
      exact ⟨hwalk, hsites'⟩
    · cases h
  · rintro ⟨hwalk, hsites⟩
    exact ⟨sites, hsites, by rw [hwalk]; rfl⟩

theorem of_sites_eq_error (h : m.sites root = .error e) :
    (m.walk root).failure = some e ∨ ∃ p ∈ m.points root, Site.ofPoint p = .error e := by
  rw [Model.sites, Walk.sites, bind_eq_error_iff] at h
  rcases h with h | ⟨sites, _, h⟩
  · exact .inr (exists_of_mapM_eq_error h)
  · split at h
    · cases h
    · next hwalk =>
      cases h
      exact .inl hwalk

theorem isStructural_of_sites (h : m.sites root = .error e) : e.isStructural = true := by
  rcases of_sites_eq_error h with hwalk | ⟨p, _, hp⟩
  · exact isStructural_of_walk hwalk
  · exact Site.isStructural_of_ofPoint hp

/-- A site is collected at the point that it is made from. -/
theorem mem_sites_iff {sites : List Site} (h : m.sites root = .ok sites) :
    s ∈ sites ↔ ∃ p ∈ m.points root, Site.ofPoint p = .ok s :=
  mem_iff_of_forall₂ (sites_eq_ok_iff.1 h).2

theorem exists_site_of_mem_points {sites : List Site} (h : m.sites root = .ok sites)
    (hp : p ∈ m.points root) : ∃ s, Site.ofPoint p = .ok s :=
  exists_ok_of_forall₂ (sites_eq_ok_iff.1 h).2 p hp

end Model

end Wiring
