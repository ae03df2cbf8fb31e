import Wiring.Proofs.Provider.Pass

/-!
# Who takes a method name

Representations are emitted in the order of their keys, and the first that can be provided takes its
method name from all later ones. What becomes of a representation is said here by the providers of
the representations before it.
-/

namespace Wiring.Generator

variable {g : Generator} {d : Domain} {sites : List Site}

/-- The name of the method that provides a representation. -/
def methodName (d : Domain) (key : Representation) : String :=
  MethodName.compose d.methodTag key.name key.type key.default

/-- What becomes of a representation after others, given the providers of these. -/
inductive Follows (g : Generator) (d : Domain) (earlier : List Provider) (r : RepresentationGroup) :
    Emission → Prop
  | provider (conversion : Conversion)
      (hresolve : g.chain.resolve g.model r.key.type (d.sourceType r.key.type) = some conversion)
      (hfree : ∀ p ∈ earlier, p.methodName ≠ methodName d r.key) :
      Follows g d earlier r (.provider (g.provider d r conversion))
  | skipped (reason : Error) (h : SkipReason g d earlier r.key reason) :
      Follows g d earlier r (.skipped reason r.element?)

/-- The names that the providers among some emissions take, that of the last first. -/
def takenBy (es : List Emission) : List (String × Representation) :=
  ((es.filterMap Emission.provider?).map fun p => (p.methodName, p.representation)).reverse

theorem takenBy_cons_provider (p : Provider) (es : List Emission) :
    takenBy (.provider p :: es) = takenBy es ++ [(p.methodName, p.representation)] := by
  simp [takenBy, Emission.provider?]

theorem takenBy_cons_skipped (reason : Error) (element : Option String) (es : List Emission) :
    takenBy (.skipped reason element :: es) = takenBy es := by
  unfold takenBy
  rw [List.filterMap_cons_none rfl]

/-- **Emission goes on with the names that are taken.** -/
theorem emit_append (taken : List (String × Representation)) (rs rs' : List RepresentationGroup) :
    g.emit d taken (rs ++ rs') =
      g.emit d taken rs ++ g.emit d (takenBy (g.emit d taken rs) ++ taken) rs' := by
  induction rs generalizing taken with
  | nil => simp [emit, takenBy]
  | cons r rs ih =>
    rw [List.cons_append, emit, emit]
    dsimp only
    cases g.chain.resolve g.model r.key.type (d.sourceType r.key.type) with
    | none =>
      dsimp only
      rw [ih, takenBy_cons_skipped, List.cons_append]
    | some conversion =>
      dsimp only
      cases taken.lookup (g.provider d r conversion).methodName with
      | some previous =>
        dsimp only
        rw [ih, takenBy_cons_skipped, List.cons_append]
      | none =>
        dsimp only
        rw [ih, takenBy_cons_provider, List.cons_append, List.append_assoc]
        rfl

theorem allTakenBy_takenBy (es : List Emission) :
    AllTakenBy (es.filterMap Emission.provider?) (takenBy es) := by
  intro c hc
  obtain ⟨p, hp, rfl⟩ := List.mem_map.1 (List.mem_reverse.1 hc)
  exact ⟨p, hp, rfl⟩

theorem ne_methodName_of_lookup {es : List Emission} {name : String}
    (h : (takenBy es).lookup name = none) : ∀ p ∈ es.filterMap Emission.provider?,
      p.methodName ≠ name := by
  rintro p hp rfl
  have hmem : (p.methodName, p.representation) ∈ takenBy es :=
    List.mem_reverse.2 (List.mem_map_of_mem hp)
  simpa using List.lookup_eq_none_iff.1 h _ hmem

/-- One step: what becomes of the first representation after others. -/
theorem exists_follows (es : List Emission) (r : RepresentationGroup)
    (rs : List RepresentationGroup) :
    ∃ e es', g.emit d (takenBy es) (r :: rs) = e :: es' ∧
      g.Follows d (es.filterMap Emission.provider?) r e := by
  rw [emit]
  dsimp only
  cases hresolve : g.chain.resolve g.model r.key.type (d.sourceType r.key.type) with
  | none => exact ⟨_, _, rfl, .skipped _ (.unconvertible hresolve)⟩
  | some conversion =>
    dsimp only
    cases hlookup : (takenBy es).lookup (g.provider d r conversion).methodName with
    | some previous =>
      obtain ⟨p, hp, hname, rfl⟩ := (allTakenBy_takenBy es).of_lookup hlookup
      rw [← hname]
      exact ⟨_, _, rfl, .skipped _ (.taken p hp hname)⟩
    | none => exact ⟨_, _, rfl, .provider conversion hresolve (ne_methodName_of_lookup hlookup)⟩

/-! ## The representations of a pass -/

/-- The providers of a pass for representations before `key`. -/
def preceding (g : Generator) (d : Domain) (sites : List Site) (key : Representation) :
    List Provider :=
  (g.finished d sites).providers.filter (·.representation.compare key == .lt)

theorem isAscending_keys :
    Ascending.IsAscending Representation.compare
      ((g.table d sites).representations.map (·.key)) := by
  rw [table, ParameterTable.map_key_representations]
  exact Ascending.isAscending_ofList _

/-- Providers come in the order of their representations. -/
theorem isAscending_representations :
    Ascending.IsAscending Representation.compare
      ((g.finished d sites).providers.map Provider.representation) :=
  List.Pairwise.sublist (sublist_providers forall₂_emittedFrom) isAscending_keys

/-- The emissions of the representations before one of them yield the providers before it. -/
theorem preceding_eq {before after : List RepresentationGroup} {es es' : List Emission}
    {r : RepresentationGroup} (hreps : (g.table d sites).representations = before ++ r :: after)
    (hemissions : g.emissions d sites = es ++ es') (hlength : es.length = before.length) :
    g.preceding d sites r.key = es.filterMap Emission.provider? := by
  have hboth : List.Forall₂ (g.EmittedFrom d (g.finished d sites).providers)
      (before ++ r :: after) (es ++ es') := hreps ▸ hemissions ▸ forall₂_emittedFrom
  have hascending : Ascending.IsAscending Representation.compare
      ((before ++ r :: after).map (·.key)) := hreps ▸ isAscending_keys
  rw [List.map_append, List.map_cons] at hascending
  obtain ⟨-, hlater, hbefore⟩ := List.pairwise_append.1 hascending
  have hfirst : ∀ p ∈ es.filterMap Emission.provider?, p.representation.compare r.key = .lt := by
    have hes := List.forall₂_take_append _ _ _ hboth
    rw [hlength, List.take_left] at hes
    intro p hp
    exact hbefore _ ((sublist_providers hes).subset (List.mem_map_of_mem hp)) _ List.mem_cons_self
  have hrest : ∀ p ∈ es'.filterMap Emission.provider?, p.representation.compare r.key ≠ .lt := by
    have hes := List.forall₂_drop_append _ _ _ hboth
    rw [hlength, List.drop_left] at hes
    intro p hp hlt
    have hmem := (sublist_providers hes).subset (List.mem_map_of_mem hp)
    rcases List.mem_cons.1 hmem with heq | hmem
    · have hself : r.key.compare r.key = .eq := Std.ReflCmp.compare_self
      rw [heq, hself] at hlt
      cases hlt
    · have hgt := Std.OrientedCmp.gt_of_lt ((List.pairwise_cons.1 hlater).1 _ hmem)
      rw [hlt] at hgt
      cases hgt
  have hproviders : (g.finished d sites).providers =
      es.filterMap Emission.provider? ++ es'.filterMap Emission.provider? := by
    rw [finished, hemissions, List.filterMap_append]
  rw [preceding, hproviders, List.filter_append, List.filter_eq_self.2, List.filter_eq_nil_iff.2,
    List.append_nil]
  · intro p hp
    simpa using hrest p hp
  · intro p hp
    simpa using hfirst p hp

/-- **What becomes of a representation** is settled by the providers before it. -/
theorem follows_of_mem_settled {r : RepresentationGroup} {e : Emission}
    (h : (r, e) ∈ g.settled d sites) : g.Follows d (g.preceding d sites r.key) r e := by
  obtain ⟨before, after, hsettled⟩ := List.append_of_mem h
  have hreps : (g.table d sites).representations =
      before.map Prod.fst ++ r :: after.map Prod.fst := by
    rw [← map_fst_settled, hsettled, List.map_append, List.map_cons]
  have hemissions : g.emissions d sites = before.map Prod.snd ++ e :: after.map Prod.snd := by
    rw [← map_snd_settled, hsettled, List.map_append, List.map_cons]
  -- the emissions up to `e` are those of the representations up to `r` alone
  have hemit : g.emissions d sites = g.emit d [] (before.map Prod.fst) ++
      g.emit d (takenBy (g.emit d [] (before.map Prod.fst))) (r :: after.map Prod.fst) := by
    rw [emissions, hreps, emit_append, List.append_nil]
  obtain ⟨e', es', hnext, hfollows⟩ :=
    exists_follows (g := g) (d := d) (g.emit d [] (before.map Prod.fst)) r (after.map Prod.fst)
  rw [hemissions, hnext] at hemit
  obtain ⟨hbefore, htail⟩ := List.append_inj hemit (by simp [length_emit])
  obtain ⟨rfl, -⟩ := List.cons_eq_cons.1 htail
  rwa [preceding_eq hreps hemissions (by simp), hbefore]

end Wiring.Generator
