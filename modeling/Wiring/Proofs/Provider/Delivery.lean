import Wiring.Proofs.Provider.Reports
import Wiring.Proofs.Site.Collect

/-!
# Delivery

A pass hands its providers and reports to receivers while it goes on, so that an error may find some
of them delivered. Here the pass is told step by step, with what was received so far as the state.
Only a malformed injection graph ends it with an error, and no provider is delivered before that: all
sites of the domain are read before the first provider is made.
-/

namespace Wiring

/-- What the receivers of a pass have got. -/
structure Delivered where
  providers : List Provider := []
  diagnostics : List Diagnostic := []
deriving DecidableEq, Repr

/-- Steps that deliver, up to an error if there is one. -/
abbrev Delivery := EStateM Error Delivered

namespace Delivered

/-- What the receivers have got once these are delivered as well. -/
def add (x : Delivered) (ps : List Provider) (ds : List Diagnostic) : Delivered :=
  ⟨x.providers ++ ps, x.diagnostics ++ ds⟩

theorem add_nil (x : Delivered) : x.add [] [] = x := by
  simp [add]

theorem add_add (x : Delivered) (ps ps' : List Provider) (ds ds' : List Diagnostic) :
    (x.add ps ds).add ps' ds' = x.add (ps ++ ps') (ds ++ ds') := by
  simp [add]

end Delivered

namespace Delivery

def accept (p : Provider) : Delivery Unit := modify (·.add [p] [])

def report (x : Diagnostic) : Delivery Unit := modify (·.add [] [x])

def reportAll : List Diagnostic → Delivery Unit
  | [] => return
  | x :: xs => do
    report x
    reportAll xs

theorem reportAll_eq (ds : List Diagnostic) (before : Delivered) :
    reportAll ds before = .ok () (before.add [] ds) := by
  induction ds generalizing before with
  | nil => exact congrArg _ before.add_nil.symm
  | cons d ds ih =>
    rw [reportAll, bind_of_ok (x := report d) rfl, ih, Delivered.add_add]
    rfl

end Delivery

/-- What is malformed in the injection graph below a root, as far as a domain is concerned. -/
inductive Model.Malformed (m : Model) (d : Domain) (root : String) : Prop
  /-- The walk fails. -/
  | walk (e : Error) (h : (m.walk root).failure = some e)
  /-- A point of the walk is refused. -/
  | refused (p : InjectionPoint) (hp : p ∈ m.points root) (e : Error) (h : Site.ofPoint p = .error e)
  /-- A site of the domain has no name. -/
  | unnamed (sites : List Site) (hsites : m.sites root = .ok sites) (s : Site) (hs : s ∈ sites)
    (hdomain : Generator.isQualified d s = true) (hname : s.qualifierName = none)

namespace Generator

open Delivery (accept report reportAll)

variable {g : Generator} {d : Domain}

/-! ## The steps of a pass -/

/-- The request of a site; none where its name cannot be expanded, which is reported. -/
def deliverRequest (g : Generator) (s : Site) : Delivery (Option Request) :=
  match s.qualifierName with
  | none => throw (.malformedQualifier ((s.qualifier.map (·.type)).getD "") s.element)
  | some name =>
    if g.expandNames then
      match Template.expand g.sources name with
      | .ok expanded => return some (.ofSite s expanded)
      | .error e => do
        report ⟨.error, e.message, some s.element⟩
        return none
    else return some (.ofSite s name)

def deliverRequests (g : Generator) : List Site → Delivery (List Request)
  | [] => return []
  | s :: ss => do
    let r ← g.deliverRequest s
    let rs ← g.deliverRequests ss
    return r.toList ++ rs

/-- Delivers the providers of some representations, given the method names that are taken, and
counts on. -/
def deliverProviders (g : Generator) (d : Domain) (taken : List (String × Representation))
    (summary : Summary) : List RepresentationGroup → Delivery Summary
  | [] => return summary
  | r :: rs => do
    let source := d.sourceType r.key.type
    match g.chain.resolve g.model r.key.type source with
    | none =>
      let reason := Error.conversionUnavailable r.key.name source.text r.key.type.text
      report ⟨.error, reason.message, r.element?⟩
      g.deliverProviders d taken { summary with skipped := summary.skipped + 1 } rs
    | some conversion =>
      let p := g.provider d r conversion
      match taken.lookup p.methodName with
      | some previous =>
        let reason := Error.providerNameCollision p.methodName r.key.text previous.text
        report ⟨.error, reason.message, r.element?⟩
        g.deliverProviders d taken { summary with skipped := summary.skipped + 1 } rs
      | none =>
        accept p
        g.deliverProviders d ((p.methodName, r.key) :: taken)
          { summary with providers := summary.providers + 1 } rs

/-- The pass over some sites. -/
def deliverPass (g : Generator) (d : Domain) (sites : List Site) : Delivery Summary := do
  let qualified := sites.filter (isQualified d)
  let requests ← g.deliverRequests qualified
  reportAll (ParameterTable.warnings requests)
  let table := ParameterTable.build d requests
  g.deliverProviders d [] ⟨qualified.length, table.parameters.length, 0, 0⟩ table.representations

/-- The pass over the sites below the component `root`. -/
def deliver (g : Generator) (d : Domain) (root : String) : Delivery Summary :=
  match g.model.sites root with
  | .error e => throw e
  | .ok sites => g.deliverPass d sites

/-! ## What has been delivered in the end -/

theorem deliverRequest_eq (s : Site) (before : Delivered) :
    g.deliverRequest s before =
      match g.request s with
      | .error e => .error e before
      | .ok (.ok r) => .ok (some r) before
      | .ok (.error x) => .ok none (before.add [] [x]) := by
  unfold deliverRequest request
  cases s.qualifierName with
  | none => rfl
  | some name =>
    dsimp only
    split
    · cases Template.expand g.sources name <;> rfl
    · rfl

/-- Sites are read up to the first one without a name. -/
theorem deliverRequests_eq (ss : List Site) (before : Delivered) :
    g.deliverRequests ss before =
      let (resolved, unnamed) := untilFailure g.request ss
      match unnamed with
      | some e => .error e (before.add [] (errors resolved))
      | none => .ok (values resolved) (before.add [] (errors resolved)) := by
  induction ss generalizing before with
  | nil => exact congrArg _ before.add_nil.symm
  | cons s ss ih =>
    have hs := deliverRequest_eq (g := g) s before
    -- the rest is read with what the site itself adds
    have hrest : ∀ (r : Option Request) (ds : List Diagnostic),
        g.deliverRequest s before = .ok r (before.add [] ds) →
          g.deliverRequests (s :: ss) before =
            match (untilFailure g.request ss).2 with
            | some e => .error e (before.add [] (ds ++ errors (untilFailure g.request ss).1))
            | none => .ok (r.toList ++ values (untilFailure g.request ss).1)
                (before.add [] (ds ++ errors (untilFailure g.request ss).1)) := by
      intro r ds hr
      have hss := ih (before.add [] ds)
      rw [deliverRequests, bind_of_ok hr]
      dsimp only at hss
      cases hend : (untilFailure g.request ss).2 with
      | some e =>
        rw [hend, Delivered.add_add] at hss
        exact bind_of_error hss
      | none =>
        rw [hend, Delivered.add_add] at hss
        exact bind_of_ok hss
    rw [untilFailure]
    rcases hrequest : g.request s with e | x | r
    · rw [hrequest] at hs
      rw [deliverRequests, bind_of_error hs]
      exact congrArg _ before.add_nil.symm
    · rw [hrequest] at hs
      exact hrest none [x] hs
    · rw [hrequest] at hs
      exact hrest (some r) [] (by rw [before.add_nil, hs])

/-- Representations are handed on one after another, none of them ends the pass. -/
theorem deliverProviders_eq (taken : List (String × Representation)) (summary : Summary)
    (rs : List RepresentationGroup) (before : Delivered) :
    g.deliverProviders d taken summary rs before =
      let providers := (g.emit d taken rs).filterMap Emission.provider?
      let failures := (g.emit d taken rs).filterMap Emission.diagnostic?
      .ok
        { summary with
          providers := summary.providers + providers.length
          skipped := summary.skipped + failures.length }
        (before.add providers failures) := by
  induction rs generalizing taken summary before with
  | nil => exact congrArg _ before.add_nil.symm
  | cons r rs ih =>
    rw [deliverProviders, emit]
    dsimp only
    cases hresolve : g.chain.resolve g.model r.key.type (d.sourceType r.key.type) with
    | none =>
      dsimp only
      rw [bind_of_ok (x := report _) rfl, ih]
      simp [List.filterMap_cons, Emission.provider?, Emission.diagnostic?, Delivered.add_add,
        Nat.add_comm, Nat.add_assoc]
    | some conversion =>
      dsimp only
      cases hlookup : taken.lookup (g.provider d r conversion).methodName with
      | some previous =>
        dsimp only
        rw [bind_of_ok (x := report _) rfl, ih]
        simp [List.filterMap_cons, Emission.provider?, Emission.diagnostic?, Delivered.add_add,
          Nat.add_comm, Nat.add_assoc]
      | none =>
        dsimp only
        rw [bind_of_ok (x := accept _) rfl, ih]
        simp [List.filterMap_cons, Emission.provider?, Emission.diagnostic?, Delivered.add_add,
          Nat.add_comm, Nat.add_assoc]

/-- A pass delivers what it yields and reports; if it ends with an error, reports only. -/
theorem deliverPass_eq (sites : List Site) (before : Delivered) :
    g.deliverPass d sites before =
      match (g.pass d sites).outcome with
      | .error e => .error e (before.add [] (g.pass d sites).diagnostics)
      | .ok p => .ok p.summary (before.add p.providers (g.pass d sites).diagnostics) := by
  have hrequests := deliverRequests_eq (g := g) (sites.filter (isQualified d)) before
  unfold deliverPass pass
  dsimp only at hrequests ⊢
  cases hend : (untilFailure g.request (sites.filter (isQualified d))).2 with
  | some e =>
    rw [hend] at hrequests
    exact bind_of_error hrequests
  | none =>
    rw [hend] at hrequests
    rw [bind_of_ok hrequests, bind_of_ok (Delivery.reportAll_eq _ _),
      deliverProviders_eq]
    simp only [Delivered.add_add, List.nil_append, Nat.zero_add, List.append_assoc]

theorem deliver_eq (root : String) (before : Delivered) :
    g.deliver d root before =
      match (g.run d root).outcome with
      | .error e => .error e (before.add [] (g.run d root).diagnostics)
      | .ok p => .ok p.summary (before.add p.providers (g.run d root).diagnostics) := by
  unfold deliver run
  cases g.model.sites root with
  | error e => exact congrArg _ before.add_nil.symm
  | ok sites => exact deliverPass_eq sites before

/-! ## Errors -/

/-- The error about a site without a name. -/
def unnamedError (s : Site) : Error :=
  .malformedQualifier ((s.qualifier.map (·.type)).getD "") s.element

/-- The first site of a domain that has no name. -/
def unnamed? (d : Domain) (sites : List Site) : Option Site :=
  (sites.filter (isQualified d)).find? (·.qualifierName.isNone)

theorem request_of_qualifierName_eq_none {s : Site} (h : s.qualifierName = none) :
    g.request s = .error (unnamedError s) := by
  rw [request, h]
  rfl

/-- Whatever else becomes of names, reading sites fails at the first one without. -/
theorem untilFailure_request_snd (ss : List Site) :
    (untilFailure g.request ss).2 =
      (ss.find? (·.qualifierName.isNone)).map unnamedError := by
  induction ss with
  | nil => rfl
  | cons s ss ih =>
    rw [untilFailure, List.find?_cons]
    cases hname : s.qualifierName with
    | none =>
      rw [request_of_qualifierName_eq_none hname]
      rfl
    | some name =>
      obtain ⟨x, hx⟩ := request_ok_iff (g := g).2 (hname ▸ Option.some_ne_none name)
      rw [hx]
      exact ih

theorem outcome_eq_error_iff {sites : List Site} {e : Error} :
    (g.pass d sites).outcome = .error e ↔ ∃ s, unnamed? d sites = some s ∧ unnamedError s = e := by
  rw [← Option.map_eq_some_iff, unnamed?, ← untilFailure_request_snd (g := g)]
  unfold pass
  dsimp only
  split
  · next hend => simp [hend]
  · next hend => simp [hend]

/-- An error comes from the collection of the sites or from a site of the domain. -/
theorem run_eq_error_iff {root : String} {e : Error} :
    (g.run d root).outcome = .error e ↔
      g.model.sites root = .error e ∨
        ∃ sites, g.model.sites root = .ok sites ∧
          ∃ s, unnamed? d sites = some s ∧ unnamedError s = e := by
  unfold run
  cases hsites : g.model.sites root with
  | error e' => simp
  | ok sites => simp [outcome_eq_error_iff]

theorem run_eq_ok_iff {root : String} {p : Pass} :
    (g.run d root).outcome = .ok p ↔
      ∃ sites, g.model.sites root = .ok sites ∧ AllNamed d sites ∧ p = g.finished d sites := by
  unfold run
  cases hsites : g.model.sites root with
  | error e => simp
  | ok sites => simp [outcome_eq_ok_iff]

theorem isStructural_of_run {root : String} {e : Error} (h : (g.run d root).outcome = .error e) :
    e.isStructural = true := by
  rcases run_eq_error_iff.1 h with h | ⟨_, _, s, _, rfl⟩
  · exact Model.isStructural_of_sites h
  · rfl

/-- A pass ends with an error exactly if the graph is malformed. -/
theorem exists_run_eq_error_iff {root : String} :
    (∃ e, (g.run d root).outcome = .error e) ↔ g.model.Malformed d root := by
  constructor
  · rintro ⟨e, h⟩
    rcases run_eq_error_iff.1 h with h | ⟨sites, hsites, s, hs, _⟩
    · rcases Model.of_sites_eq_error h with hwalk | ⟨p, hp, hrefused⟩
      · exact .walk e hwalk
      · exact .refused p hp e hrefused
    · obtain ⟨hmem, hdomain⟩ := List.mem_filter.1 (List.mem_of_find?_eq_some hs)
      exact .unnamed sites hsites s hmem hdomain
        (Option.isNone_iff_eq_none.1 (List.find?_some hs :))
  · intro h
    by_contra hno
    obtain ⟨p, hp⟩ : ∃ p, (g.run d root).outcome = .ok p := by
      cases hrun : (g.run d root).outcome with
      | error e => exact absurd ⟨e, hrun⟩ hno
      | ok p => exact ⟨p, rfl⟩
    obtain ⟨sites, hsites, hnamed, _⟩ := run_eq_ok_iff.1 hp
    cases h with
    | walk e hfailure =>
      rw [(Model.sites_eq_ok_iff.1 hsites).1] at hfailure
      cases hfailure
    | refused p hp e hrefused =>
      obtain ⟨s, hs⟩ := Model.exists_site_of_mem_points hsites hp
      rw [hs] at hrefused
      cases hrefused
    | unnamed sites' hsites' s hs hdomain hname =>
      rw [hsites] at hsites'
      cases hsites'
      exact hnamed s hs hdomain hname

/-! ## How a pass ends -/

/-- How a pass ends, and what it has delivered by then. -/
structure Ending (g : Generator) (d : Domain) (root : String) : Prop where
  error_iff : (∃ e, (g.run d root).outcome = .error e) ↔ g.model.Malformed d root
  isStructural : ∀ e, (g.run d root).outcome = .error e → e.isStructural = true
  /-- An error finds no provider delivered. -/
  deliver_of_error : ∀ e, (g.run d root).outcome = .error e → ∀ before,
    g.deliver d root before = .error e (before.add [] (g.run d root).diagnostics)
  /-- Of the settings, an error depends on the model alone. -/
  error_of_model : ∀ g' : Generator, g'.model = g.model → ∀ e,
    (g'.run d root).outcome = .error e ↔ (g.run d root).outcome = .error e
  deliver_of_ok : ∀ p, (g.run d root).outcome = .ok p → ∀ before,
    g.deliver d root before = .ok p.summary (before.add p.providers (g.run d root).diagnostics)
  /-- The sites that are dropped and the representations that are skipped are reported. -/
  count_error : ∀ p, (g.run d root).outcome = .ok p → ∃ sites, g.model.sites root = .ok sites ∧
    Diagnostic.count (g.run d root).diagnostics .error =
      (g.dropped d sites).length + p.summary.skipped

/-- **Only a malformed graph ends a pass with an error**, before any provider is delivered. -/
theorem ending (g : Generator) (d : Domain) (root : String) : g.Ending d root where
  error_iff := exists_run_eq_error_iff
  isStructural _ h := isStructural_of_run h
  deliver_of_error e h before := by rw [deliver_eq, h]
  error_of_model g' hmodel e := by rw [run_eq_error_iff, run_eq_error_iff, hmodel]
  deliver_of_ok p h before := by rw [deliver_eq, h]
  count_error p h := by
    obtain ⟨sites, hsites, hnamed, rfl⟩ := run_eq_ok_iff.1 h
    refine ⟨sites, hsites, ?_⟩
    have hrun : g.run d root = g.pass d sites := by rw [run, hsites]
    rw [hrun, pass_of_allNamed hnamed]
    exact count_finishedDiagnostics hnamed .error

end Generator

end Wiring
