import Mathlib
import Wiring.CommandLine.Run
import Wiring.Proofs.Model.Merging
import Wiring.Proofs.Provider.Delivery

/-!
# Generations

The passes for all components and domains share one receiver of diagnostics. A component may fail
before its passes, a pass may fail after it has reported something. Here the command is told as it
goes on, with what was received so far as the state. A pass adds what it yields and reports by
itself, so no failure reaches beyond its own pass, and the errors add up. What is written in the end,
as a document or as text, is what the passes have yielded and reported.
-/

namespace Wiring

namespace Generator

variable {g : Generator} {d : Domain} {sites : List Site}

/-! ## Errors within a pass -/

/-- The sites of a domain that a pass reads: those before the first one without a name. -/
def reached (d : Domain) (sites : List Site) : List Site :=
  (sites.filter (isQualified d)).takeWhile (·.qualifierName.isSome)

/-- The representations of the table that have no provider in a finished pass. -/
def unserved (g : Generator) (d : Domain) (sites : List Site) (p : Pass) :
    List RepresentationGroup :=
  (g.table d sites).representations.filter fun r => r.key ∉ p.providers.map Provider.representation

/-- The errors that are due in a pass: one for each site that it reads and cannot expand, and one for
each representation without a provider. A pass that fails has not got to the representations. -/
def itemErrors (g : Generator) (d : Domain) (sites : List Site) : Nat :=
  ((reached d sites).filter g.isUnexpandable).length +
    match (g.pass d sites).outcome with
    | .ok p => (g.unserved d sites p).length
    | .error _ => 0

theorem reached_of_allNamed (h : AllNamed d sites) :
    reached d sites = sites.filter (isQualified d) := by
  refine List.takeWhile_eq_self_iff.2 fun s hs => ?_
  obtain ⟨hmem, hdomain⟩ := List.mem_filter.1 hs
  exact Option.isSome_iff_ne_none.2 (h s hmem hdomain)

/-- A representation that is skipped has no provider, and any other has exactly one. -/
theorem length_unserved :
    (g.unserved d sites (g.finished d sites)).length = (g.finished d sites).summary.skipped := by
  let keys := (g.table d sites).representations.map (·.key)
  let served := (g.finished d sites).providers.map Provider.representation
  have hsub : served.Sublist keys := sublist_providers forall₂_emittedFrom
  have hnodup : keys.Nodup := by
    show ((g.table d sites).representations.map (·.key)).Nodup
    rw [table, ParameterTable.map_key_representations]
    exact ParameterTable.nodup_keys
  have hserved : (keys.filter (· ∈ served)).length = served.length := by
    refine List.Perm.length_eq ?_
    rw [List.perm_ext_iff_of_nodup (hnodup.filter _) (hnodup.sublist hsub)]
    intro key
    simpa using fun h => hsub.subset h
  have hunserved : (g.unserved d sites (g.finished d sites)).length =
      (keys.filter fun key => !decide (key ∈ served)).length := by
    rw [List.filter_map, List.length_map]
    exact congrArg List.length (List.filter_congr fun r _ => decide_not)
  have hkeys : keys.length = (g.emissions d sites).length := by
    rw [List.length_map, length_emissions]
  have hsplit := List.length_eq_length_filter_add (l := keys) (· ∈ served)
  have hemissions := length_providers_add_length_failures (g.emissions d sites)
  have hproviders : served.length = ((g.emissions d sites).filterMap Emission.provider?).length :=
    List.length_map _
  show _ = ((g.emissions d sites).filterMap Emission.diagnostic?).length
  omega

/-- Every site that is read and dropped is reported, whether or not the reading fails later on. -/
theorem count_errors_untilFailure (ss : List Site) :
    Diagnostic.count (errors (untilFailure g.request ss).1) .error =
      ((ss.takeWhile (·.qualifierName.isSome)).filter g.isUnexpandable).length := by
  induction ss with
  | nil => rfl
  | cons s ss ih =>
    rw [untilFailure]
    cases hname : s.qualifierName with
    | none =>
      rw [request_of_qualifierName_eq_none hname, List.takeWhile_cons_of_neg (by simp [hname])]
      rfl
    | some name =>
      rw [List.takeWhile_cons_of_pos (by simp [hname])]
      rcases request_of_qualifierName (g := g) (hname ▸ Option.some_ne_none name) with
        ⟨x, hx, hseverity, hdropped⟩ | ⟨r, hr, hkept⟩
      · rw [hx, List.filter_cons_of_pos hdropped, List.length_cons, ← ih]
        simp [errors, Diagnostic.count, hseverity]
      · rw [hr, List.filter_cons_of_neg (by simp [hkept]), ← ih]
        rfl

/-- **What a pass reports as an error**, however it ends. -/
theorem count_error_pass :
    Diagnostic.count (g.pass d sites).diagnostics .error = g.itemErrors d sites := by
  cases hend : (untilFailure g.request (sites.filter (isQualified d))).2 with
  | some e =>
    have hpass : g.pass d sites =
        ⟨errors (untilFailure g.request (sites.filter (isQualified d))).1, .error e⟩ := by
      unfold pass
      dsimp only
      rw [hend]
    rw [itemErrors, hpass, count_errors_untilFailure]
    rfl
  | none =>
    have hnamed := untilFailure_request_eq_none_iff.1 hend
    rw [itemErrors, pass_of_allNamed hnamed, count_finishedDiagnostics hnamed,
      reached_of_allNamed hnamed]
    dsimp only
    rw [length_unserved, dropped]

end Generator

namespace CommandLine

variable {g : Generator} {d : Domain} {domains : List Domain} {component : String}
  {components : List String} {sites : List Site}

namespace Generation

/-- One generation after another. -/
def add (x y : Generation) : Generation :=
  ⟨x.passes ++ y.passes, x.diagnostics ++ y.diagnostics⟩

theorem add_join_nil (x : Generation) : x.add (join []) = x := by
  simp [add, join]

theorem join_cons (y : Generation) (ys : List Generation) : join (y :: ys) = y.add (join ys) :=
  rfl

theorem add_assoc (x y z : Generation) : (x.add y).add z = x.add (y.add z) := by
  simp [add]

theorem count_add (x y : Generation) (s : Severity) :
    Diagnostic.count (x.add y).diagnostics s =
      Diagnostic.count x.diagnostics s + Diagnostic.count y.diagnostics s :=
  Diagnostic.count_append s

/-- A loop whose step adds to the generation so far adds everything, in order. -/
theorem foldl_eq_add_join {α : Type} {step : Generation → α → Generation} {f : α → Generation}
    (hstep : ∀ x a, step x a = x.add (f a)) (as : List α) (x : Generation) :
    as.foldl step x = x.add (join (as.map f)) := by
  induction as generalizing x with
  | nil => exact x.add_join_nil.symm
  | cons a as ih => rw [List.foldl_cons, ih, hstep, List.map_cons, join_cons, add_assoc]

end Generation

/-! ## One receiver for all passes -/

/-- The pass for a domain, with a receiver of providers of its own and the diagnostics so far. -/
def passInto (g : Generator) (component : String) (sites : List Site) (x : Generation)
    (d : Domain) : Generation :=
  match g.deliverPass d sites ⟨[], x.diagnostics⟩ with
  | .ok summary after =>
    ⟨x.passes ++ [⟨component, d.name, ⟨after.providers, summary⟩⟩], after.diagnostics⟩
  | .error e after => ⟨x.passes, after.diagnostics ++ [⟨.error, e.message, some component⟩]⟩

/-- The passes for a component, one after another. If its sites cannot be collected there are
none. -/
def componentInto (g : Generator) (domains : List Domain) (x : Generation) (component : String) :
    Generation :=
  match g.model.sites component with
  | .ok sites => domains.foldl (passInto g component sites) x
  | .error e => ⟨x.passes, x.diagnostics ++ [⟨.error, e.message, some component⟩]⟩

/-- The passes for all components, one after another. -/
def generateAll (g : Generator) (components : List String) (domains : List Domain) : Generation :=
  components.foldl (componentInto g domains) ⟨[], []⟩

/-- A pass adds to what was received before it what it would have been alone. -/
theorem passInto_eq (x : Generation) (d : Domain) :
    passInto g component sites x d = x.add (generateDomain g component sites d) := by
  unfold passInto generateDomain
  -- what is delivered goes behind the diagnostics so far, also where the pass fails in the end
  rw [Generator.deliverPass_eq]
  dsimp only
  cases (g.pass d sites).outcome with
  | ok p => simp [Generation.add, Delivered.add]
  | error e => simp [Generation.add, Delivered.add]

theorem componentInto_eq (x : Generation) (component : String) :
    componentInto g domains x component = x.add (generateComponent g domains component) := by
  unfold componentInto generateComponent
  cases g.model.sites component with
  | ok sites => exact Generation.foldl_eq_add_join passInto_eq domains x
  | error e => simp [Generation.add]

/-- **What all passes yield is what each of them yields by itself.** -/
theorem generateAll_eq :
    generateAll g components domains =
      Generation.join (components.map (generateComponent g domains)) := by
  rw [generateAll, Generation.foldl_eq_add_join componentInto_eq]
  rfl

/-! ## Components and domains by themselves -/

/-- The pass for a component and a domain, if it finishes. -/
def finishedPass? (g : Generator) (pair : String × Domain) : Option ComponentPass :=
  match g.model.sites pair.1 with
  | .ok sites => (g.pass pair.2 sites).outcome.toOption.map (⟨pair.1, pair.2.name, ·⟩)
  | .error _ => none

/-- What is reported about a component: why its sites cannot be collected or, for one domain after
another, what the pass reports and the error that ends it if there is one. -/
def reportsOn (g : Generator) (domains : List Domain) (component : String) : List Diagnostic :=
  match g.model.sites component with
  | .error e => [⟨.error, e.message, some component⟩]
  | .ok sites =>
    domains.flatMap fun d =>
      (g.pass d sites).diagnostics ++
        match (g.pass d sites).outcome with
        | .ok _ => []
        | .error e => [⟨.error, e.message, some component⟩]

/-- Whether the sites of a component cannot be collected. -/
def isUnwalkable (g : Generator) (component : String) : Bool :=
  !(g.model.sites component).isOk

/-- Whether the sites of a component can be collected, but the pass for a domain fails. -/
def passFails (g : Generator) (pair : String × Domain) : Bool :=
  match g.model.sites pair.1 with
  | .ok sites => !(g.pass pair.2 sites).outcome.isOk
  | .error _ => false

/-- The errors that are reported within the pass for a component and a domain. -/
def errorsWithin (g : Generator) (pair : String × Domain) : Nat :=
  match g.model.sites pair.1 with
  | .ok sites => g.itemErrors pair.2 sites
  | .error _ => 0

theorem passes_generateDomain (hsites : g.model.sites component = .ok sites) :
    (generateDomain g component sites d).passes = (finishedPass? g (component, d)).toList := by
  unfold generateDomain finishedPass?
  rw [hsites]
  dsimp only
  cases (g.pass d sites).outcome with
  | ok p => rfl
  | error e => rfl

theorem passes_generateComponent :
    (generateComponent g domains component).passes =
      (domains.map (component, ·)).filterMap (finishedPass? g) := by
  unfold generateComponent
  cases hsites : g.model.sites component with
  | ok sites =>
    rw [List.filterMap_eq_flatMap_toList, List.flatMap_map]
    show (domains.map (generateDomain g component sites)).flatMap (·.passes) = _
    rw [List.flatMap_map]
    exact List.flatMap_congr fun d _ => passes_generateDomain hsites
  | error e =>
    refine (List.filterMap_eq_nil_iff.2 fun pair hpair => ?_).symm
    obtain ⟨d, _, rfl⟩ := List.mem_map.1 hpair
    rw [finishedPass?, hsites]

theorem count_error_generateDomain (hsites : g.model.sites component = .ok sites) :
    Diagnostic.count (generateDomain g component sites d).diagnostics .error =
      (if passFails g (component, d) then 1 else 0) + errorsWithin g (component, d) := by
  have hitems : errorsWithin g (component, d) = g.itemErrors d sites := by
    rw [errorsWithin, hsites]
  have hpass : passFails g (component, d) = !(g.pass d sites).outcome.isOk := by
    rw [passFails, hsites]
  rw [hitems, hpass, ← Generator.count_error_pass]
  unfold generateDomain
  dsimp only
  cases (g.pass d sites).outcome with
  | ok p => simp [Except.isOk, Except.toBool]
  | error e => simp [Except.isOk, Except.toBool, Diagnostic.count, Nat.add_comm]

theorem count_error_generateComponent :
    Diagnostic.count (generateComponent g domains component).diagnostics .error =
      (if isUnwalkable g component then 1 else 0) +
        (domains.map (component, ·)).countP (passFails g) +
        ((domains.map (component, ·)).map (errorsWithin g)).sum := by
  unfold isUnwalkable generateComponent
  cases hsites : g.model.sites component with
  | ok sites =>
    dsimp only
    -- every domain has its pass, whether or not the one before it has failed
    induction domains with
    | nil => rfl
    | cons d ds ih =>
      rw [List.map_cons, Generation.join_cons, Generation.count_add, ih,
        count_error_generateDomain hsites, List.map_cons, List.countP_cons, List.map_cons,
        List.sum_cons]
      omega
  | error e =>
    have hfails : (domains.map (component, ·)).countP (passFails g) = 0 := by
      simp [List.countP_eq_zero, passFails, hsites]
    have hitems : ((domains.map (component, ·)).map (errorsWithin g)).sum = 0 := by
      refine List.sum_eq_zero fun n hn => ?_
      obtain ⟨pair, hpair, rfl⟩ := List.mem_map.1 hn
      obtain ⟨d, _, rfl⟩ := List.mem_map.1 hpair
      rw [errorsWithin, hsites]
    rw [hfails, hitems]
    rfl

/-- All errors of a generation: the components that cannot be walked, the passes that fail, and
what is reported within passes. -/
def errorTotal (g : Generator) (components : List String) (domains : List Domain) : Nat :=
  components.countP (isUnwalkable g) + (components ×ˢ domains).countP (passFails g) +
    ((components ×ˢ domains).map (errorsWithin g)).sum

/-- **No error is lost and none is counted twice.** -/
theorem count_error_generateAll :
    Diagnostic.count (generateAll g components domains).diagnostics .error =
      errorTotal g components domains := by
  rw [generateAll_eq, errorTotal]
  induction components with
  | nil => rfl
  | cons c cs ih =>
    rw [List.map_cons, Generation.join_cons, Generation.count_add, ih,
      count_error_generateComponent, List.countP_cons, List.product_cons, List.countP_append,
      List.map_append, List.sum_append]
    omega

/-- **A pass is reported exactly if it finishes**, in the order of components and domains. -/
theorem passes_generateAll :
    (generateAll g components domains).passes =
      (components ×ˢ domains).filterMap (finishedPass? g) := by
  rw [generateAll_eq]
  induction components with
  | nil => rfl
  | cons c cs ih =>
    rw [List.map_cons, Generation.join_cons, List.product_cons, List.filterMap_append, ← ih,
      ← passes_generateComponent]
    rfl

/-- **Every report is received**, in the order of components and domains. -/
theorem diagnostics_generateAll :
    (generateAll g components domains).diagnostics = components.flatMap (reportsOn g domains) := by
  rw [generateAll_eq]
  show (components.map (generateComponent g domains)).flatMap (·.diagnostics) = _
  rw [List.flatMap_map]
  refine List.flatMap_congr fun component _ => ?_
  unfold generateComponent reportsOn
  cases g.model.sites component with
  | error e => rfl
  | ok sites =>
    show (domains.map (generateDomain g component sites)).flatMap (·.diagnostics) = _
    rw [List.flatMap_map]
    refine List.flatMap_congr fun d _ => ?_
    unfold generateDomain
    dsimp only
    cases (g.pass d sites).outcome with
    | ok p => exact (List.append_nil _).symm
    | error e => rfl

/-- The summary of a pass that finishes counts the providers that it yields. -/
theorem providers_of_finishedPass? {pair : String × Domain} {p : ComponentPass}
    (h : finishedPass? g pair = some p) : p.pass.summary.providers = p.pass.providers.length := by
  unfold finishedPass? at h
  cases hsites : g.model.sites pair.1 with
  | error e =>
    rw [hsites] at h
    cases h
  | ok sites =>
    rw [hsites] at h
    dsimp only at h
    cases hpass : (g.pass pair.2 sites).outcome with
    | error e =>
      rw [hpass] at h
      cases h
    | ok pass =>
      rw [hpass] at h
      cases h
      obtain ⟨-, rfl⟩ := Generator.outcome_eq_ok_iff.1 hpass
      rfl

/-! ## The command -/

/-- The generator of a command. -/
def Surroundings.generator (s : Surroundings) (c : Config) (m : Model) : Generator where
  model := m
  sources := ⟨s.environment.lookup, c.property⟩
  expandNames := c.expandNames

/-- What is written about passes that have finished and about what was reported. -/
structure Written (passes : List ComponentPass) (reports : List Diagnostic) (x : Generation) :
    Prop where
  /-- The document has a table for each pass, with its summary and a table for each of its providers,
  and a table for each report. -/
  document_eq : ∀ styled, (x.outcome styled .json).stdout =
    Data.json (.table
      [ ("passes", .array (passes.map fun p => .table
          [ ("component", .string p.component),
            ("domain", .string p.domain),
            ("summary", .table
              [ ("sites", .ofNat p.pass.summary.sites),
                ("parameters", .ofNat p.pass.summary.parameters),
                ("providers", .ofNat p.pass.summary.providers),
                ("skipped", .ofNat p.pass.summary.skipped) ]),
            ("providers", .array (p.pass.providers.map fun q => .table
              [ ("domain", .string q.domain),
                ("name", .string q.name),
                ("default_value", .ofOption .string q.default),
                ("provided_type", .string q.providedType.text),
                ("source_type", .string q.sourceType.text),
                ("required", .boolean q.required),
                ("nullable", .boolean q.nullable),
                ("conversion", q.conversion.data),
                ("expression", .string q.expression),
                ("method_name", .string q.methodName),
                ("sites", .array (q.sites.map .string)) ])) ])),
        ("diagnostics", .array (reports.map fun r => .table
          [ ("severity", .string r.severity.name),
            ("message", .string r.message),
            ("element", .ofOption .string r.element) ])) ]) ++ "\n"
  document_alone : ∀ styled, (x.outcome styled .json).stderr = ""
  /-- The text lists the providers of each pass below it, leaves out passes without any, and counts
  what was done. -/
  text_eq : ∀ styled, (x.outcome styled .text).stdout =
    lines ((passes.filter (·.pass.providers ≠ [])).flatMap fun p =>
      (Text.Style.bold.paint styled p.component ++ " " ++
        Text.Style.cyan.paint styled ("[" ++ p.domain ++ "]")) ::
      p.pass.providers.flatMap fun q =>
        [ "  " ++ Text.Style.bold.paint styled q.methodName ++ " " ++ q.providedType.text ++ " " ++
            q.name ++ q.default.elim "" (fun value => " = \"" ++ value ++ "\"") ++
            " (" ++ policy styled q ++ ")",
          "      " ++ Text.Style.dimmed.paint styled q.expression ]) ++
    lines
      [ toString (passes.map (·.pass.providers.length)).sum ++ " provider(s), " ++
          toString (Diagnostic.count reports .warning) ++ " warning(s), " ++
          toString (Diagnostic.count reports .error) ++ " error(s)" ]
  /-- Beside the text every report is written for a terminal. -/
  terminal_eq : ∀ styled, (x.outcome styled .text).stderr =
    lines (reports.map (·.terminal styled))

/-- What a generation reports where some of its passes fail. -/
structure Contained (g : Generator) (components : List String) (domains : List Domain)
    (x : Generation) : Prop where
  /-- A pass that finishes by itself is reported as it is, component by component and then in the
  order of the domains. -/
  passes_eq : x.passes = (components ×ˢ domains).filterMap (finishedPass? g)
  diagnostics_eq : x.diagnostics = components.flatMap (reportsOn g domains)
  count_error : Diagnostic.count x.diagnostics .error = errorTotal g components domains
  /-- In either format the command fails exactly if there are errors. -/
  failure_eq : ∀ styled format, (x.outcome styled format).failure =
    if errorTotal g components domains = 0 then none
    else some (.ofMessage ("Generation reported " ++
      toString (errorTotal g components domains) ++ " error(s)"))
  /-- These passes and reports are what is written, whether or not the command fails. -/
  written : Written ((components ×ˢ domains).filterMap (finishedPass? g))
    (components.flatMap (reportsOn g domains)) x

theorem lines_append (as bs : List String) : lines (as ++ bs) = lines as ++ lines bs := by
  simp only [lines, List.map_append, String.join_append]

theorem passLines_eq (styled : Text.Style.Enabled) (passes : List ComponentPass) :
    passes.flatMap (passLines styled) =
      (passes.filter (·.pass.providers ≠ [])).flatMap fun p =>
        (Text.Style.bold.paint styled p.component ++ " " ++
          Text.Style.cyan.paint styled ("[" ++ p.domain ++ "]")) ::
        p.pass.providers.flatMap (providerLines styled) := by
  induction passes with
  | nil => rfl
  | cons p ps ih =>
    rw [List.flatMap_cons, ih]
    by_cases hproviders : p.pass.providers = []
    · rw [List.filter_cons_of_neg (by simpa using hproviders), passLines,
        if_pos (List.isEmpty_iff.2 hproviders)]
      rfl
    · rw [List.filter_cons_of_pos (by simpa using hproviders), passLines,
        if_neg (fun hempty => hproviders (List.isEmpty_iff.1 hempty))]
      rfl

theorem written_of_forall {x : Generation}
    (h : ∀ p ∈ x.passes, p.pass.summary.providers = p.pass.providers.length) :
    Written x.passes x.diagnostics x where
  document_eq styled := rfl
  document_alone styled := rfl
  text_eq styled := by
    have hlines : providerLines styled = fun q =>
        [ "  " ++ Text.Style.bold.paint styled q.methodName ++ " " ++ q.providedType.text ++ " " ++
            q.name ++ q.default.elim "" (fun value => " = \"" ++ value ++ "\"") ++
            " (" ++ policy styled q ++ ")",
          "      " ++ Text.Style.dimmed.paint styled q.expression ] := by
      funext q
      unfold providerLines
      cases q.default <;> rfl
    have hproviders : x.passes.foldl (fun n p => n + p.pass.summary.providers) 0 =
        (x.passes.map (·.pass.providers.length)).sum := by
      rw [← List.map_congr_left h, List.sum_eq_foldl, List.foldl_map]
    show lines (x.passes.flatMap (passLines styled) ++ [x.totals]) = _
    rw [lines_append, passLines_eq, hlines, Generation.totals, hproviders]
  terminal_eq styled := rfl

theorem contained_generateAll :
    Contained g components domains (generateAll g components domains) where
  passes_eq := passes_generateAll
  diagnostics_eq := diagnostics_generateAll
  count_error := count_error_generateAll
  failure_eq styled format := by
    rw [← count_error_generateAll]
    cases format with
    | text => rfl
    | json => rfl
  written := by
    rw [← passes_generateAll, ← diagnostics_generateAll]
    refine written_of_forall fun p hp => ?_
    rw [passes_generateAll, List.mem_filterMap] at hp
    obtain ⟨pair, -, hpair⟩ := hp
    exact providers_of_finishedPass? hpair

/-- **Failures stay within their passes.** -/
theorem contained_runGenerate {s : Surroundings} {c : Config} {path : String}
    {patterns names : List String} {m : Model}
    (hload : loadComponents s path patterns = .ok (m, components))
    (hdomains : c.selectDomains names = .ok domains) (format : OutputFormat) :
    let g := s.generator c m
    let x := generateAll g components domains
    runGenerate s c path patterns names format = .ok (x.outcome s.styled format) ∧
      Contained g components domains x := by
  refine ⟨?_, contained_generateAll⟩
  rw [generateAll_eq]
  unfold runGenerate
  rw [hload]
  show (c.selectDomains names >>= _) = _
  rw [hdomains]
  rfl

/-! ## A command that fails at both levels

Of three components the second includes something that is no module, and the third has a site
without a name in one of two domains. -/

/-- Reading a document adds its declarations. -/
theorem readModelDocument_of_readTypes {text file : String} {ds : List TypeDecl}
    {declared after : DeclaredIn} (htypes : readTypes text file = .ok ds)
    (hadd : addDeclarations file ds declared = .ok after) :
    readModelDocument declared (file, text.toUTF8) = .ok after := by
  show ((decodeText text.toUTF8).mapError _ >>= fun text =>
    (readTypes text file >>= (addDeclarations file · declared)).mapError Failure.ofError) = _
  rw [decodeText_toUTF8]
  show (readTypes text file >>= (addDeclarations file · declared)).mapError Failure.ofError = _
  rw [htypes]
  show (addDeclarations file ds declared).mapError Failure.ofError = _
  rw [hadd]
  rfl

/-- A component with one named site. -/
def exampleSound : TypeDecl where
  name := "A"
  kind := .component
  methods :=
    [ { name := "p"
        returns := .primitive .int
        annotations := [.named "X" "P" none] } ]

/-- A component that includes a component. -/
def exampleBroken : TypeDecl where
  name := "B"
  kind := .component
  modules := ["A"]

/-- A component with one site without a name. -/
def exampleUnnamed : TypeDecl where
  name := "C"
  kind := .component
  methods :=
    [ { name := "q"
        returns := .primitive .int
        annotations := [{ type := "X", qualifier := true }] } ]

def exampleSoundText : String :=
  "[[types]]\nname = \"A\"\nkind = \"component\"\n[[types.methods]]\nname = \"p\"\n" ++
  "returns = \"int\"\nannotations = [\x7btype = \"X\", qualifier = true, name = \"P\"\x7d]\n"

def exampleBrokenText : String :=
  "[[types]]\nname = \"B\"\nkind = \"component\"\nmodules = [\"A\"]\n"

def exampleUnnamedText : String :=
  "[[types]]\nname = \"C\"\nkind = \"component\"\n[[types.methods]]\nname = \"q\"\n" ++
  "returns = \"int\"\nannotations = [\x7btype = \"X\", qualifier = true\x7d]\n"

theorem readTypes_exampleSoundText :
    readTypes exampleSoundText "m/a.toml" = .ok [exampleSound] := by
  cbv

theorem readTypes_exampleBrokenText :
    readTypes exampleBrokenText "m/b.toml" = .ok [exampleBroken] := by
  cbv

theorem readTypes_exampleUnnamedText :
    readTypes exampleUnnamedText "m/c.toml" = .ok [exampleUnnamed] := by
  cbv

/-- A directory with documents of these texts. -/
def exampleFiles (a b c : String) : Files := fun path =>
  if path = "m" then
    .directory [⟨["a.toml"], a.toUTF8⟩, ⟨["b.toml"], b.toUTF8⟩, ⟨["c.toml"], c.toUTF8⟩]
  else .missing

theorem modelDocuments_exampleFiles (a b c : String) :
    (exampleFiles a b c).modelDocuments "m" =
      .ok [("m/a.toml", a.toUTF8), ("m/b.toml", b.toUTF8), ("m/c.toml", c.toUTF8)] := by
  have hnames : isDocumentName "a.toml" = true ∧ isDocumentName "b.toml" = true ∧
      isDocumentName "c.toml" = true := by
    decide +kernel
  have hpaths : joinPath "m" ["a.toml"] = "m/a.toml" ∧ joinPath "m" ["b.toml"] = "m/b.toml" ∧
      joinPath "m" ["c.toml"] = "m/c.toml" := by
    decide +kernel
  simp [Files.modelDocuments, exampleFiles, hnames, hpaths]

def exampleSurroundings : Surroundings where
  files := exampleFiles exampleSoundText exampleBrokenText exampleUnnamedText
  environment := ⟨[]⟩
  styled := false

def exampleModel : Model := Model.builtin.insertAll [exampleSound, exampleBroken, exampleUnnamed]

theorem load_example : Model.load exampleSurroundings.files "m" = .ok exampleModel := by
  have hsound : readModelDocument [] ("m/a.toml", exampleSoundText.toUTF8) =
      .ok [(exampleSound, "m/a.toml")] :=
    readModelDocument_of_readTypes readTypes_exampleSoundText rfl
  have hbroken : readModelDocument [(exampleSound, "m/a.toml")]
      ("m/b.toml", exampleBrokenText.toUTF8) =
        .ok [(exampleSound, "m/a.toml"), (exampleBroken, "m/b.toml")] :=
    readModelDocument_of_readTypes readTypes_exampleBrokenText rfl
  have hunnamed : readModelDocument [(exampleSound, "m/a.toml"), (exampleBroken, "m/b.toml")]
      ("m/c.toml", exampleUnnamedText.toUTF8) =
        .ok [(exampleSound, "m/a.toml"), (exampleBroken, "m/b.toml"),
          (exampleUnnamed, "m/c.toml")] :=
    readModelDocument_of_readTypes readTypes_exampleUnnamedText rfl
  unfold Model.load
  rw [exampleSurroundings, modelDocuments_exampleFiles, bind_eq_ok_iff]
  refine ⟨_, rfl, ?_⟩
  rw [bind_eq_ok_iff]
  refine ⟨[(exampleSound, "m/a.toml"), (exampleBroken, "m/b.toml"), (exampleUnnamed, "m/c.toml")],
    ?_, rfl⟩
  rw [List.foldlM_cons, bind_eq_ok_iff]
  refine ⟨_, hsound, ?_⟩
  rw [List.foldlM_cons, bind_eq_ok_iff]
  refine ⟨_, hbroken, ?_⟩
  rw [List.foldlM_cons, bind_eq_ok_iff]
  exact ⟨_, hunnamed, rfl⟩

theorem loadComponents_example :
    loadComponents exampleSurroundings "m" [] = .ok (exampleModel, ["A", "B", "C"]) := by
  have hselect : exampleModel.select [] = .ok ["A", "B", "C"] := by
    have hnames : exampleModel.components.map (·.name) = ["A", "B", "C"] := by decide +kernel
    unfold Model.select
    rw [hnames]
    rfl
  unfold loadComponents
  rw [load_example]
  exact bind_eq_ok_iff.2 ⟨_, rfl, bind_eq_ok_iff.2 ⟨_, hselect, rfl⟩⟩

def exampleDomains : List Domain :=
  [ { name := "x", qualifier := "X", methodTag := "X" },
    { name := "y", qualifier := "Y", methodTag := "Y" } ]

def exampleConfig : Config := { domains := exampleDomains }

theorem selectDomains_example : exampleConfig.selectDomains ["x", "y"] = .ok exampleDomains := by
  rfl

/-- The site of a provision method that returns an `int`. -/
def exampleSite (element : String) (qualifier : Annotation) : Site where
  element
  kind := .provisionResult
  style := .primitive
  declaredType := .primitive .int
  providedType := .primitive .int
  qualifier := some qualifier
  annotations := [qualifier]
  nullable := false

theorem sites_exampleSound :
    exampleModel.sites "A" =
      .ok [exampleSite "provision method A.p()" (.named "X" "P" none)] := by
  cbv

theorem sites_exampleBroken : exampleModel.sites "B" = .error (.notAModule "A" "B") := by
  cbv

theorem sites_exampleUnnamed :
    exampleModel.sites "C" =
      .ok [exampleSite "provision method C.q()" { type := "X", qualifier := true }] := by
  cbv

/-- A component that cannot be walked and a pass that fails are the errors. -/
theorem errorTotal_example :
    errorTotal (exampleSurroundings.generator exampleConfig exampleModel) ["A", "B", "C"]
      exampleDomains = 2 := by
  simp only [errorTotal, exampleDomains, List.product_cons, List.nil_product, List.map_cons,
    List.map_nil, List.cons_append, List.nil_append, List.countP_cons, isUnwalkable, passFails,
    errorsWithin, Surroundings.generator, sites_exampleSound, sites_exampleBroken,
    sites_exampleUnnamed]
  decide +kernel

/-- The text about the sound component, with the failures of the others among the counts. -/
def exampleLines : List String :=
  [ "A [x]",
    "  provideXPAsInt int P (required)",
    "      Integer.parseInt(value)",
    "  provideXP java.lang.String P (required)",
    "      value",
    "2 provider(s), 0 warning(s), 2 error(s)" ]

/-- What is written beside that text. -/
def exampleErrorLines : List String :=
  [ "error: Type 'A' referenced by 'B' is not a module",
    "  --> B",
    "error: Qualifier @X on provision method C.q() has no name",
    "  --> C" ]

theorem written_example :
    let g := exampleSurroundings.generator exampleConfig exampleModel
    let o := (generateAll g ["A", "B", "C"] exampleDomains).outcome false .text
    o.stdout = lines exampleLines ∧ o.stderr = lines exampleErrorLines := by
  simp only [generateAll, exampleDomains, componentInto, List.foldl_cons, List.foldl_nil,
    Surroundings.generator, sites_exampleSound, sites_exampleBroken, sites_exampleUnnamed]
  decide +kernel

theorem contained_example :
    let g := exampleSurroundings.generator exampleConfig exampleModel
    let x := generateAll g ["A", "B", "C"] exampleDomains
    loadComponents exampleSurroundings "m" [] = .ok (exampleModel, ["A", "B", "C"]) ∧
      exampleConfig.selectDomains ["x", "y"] = .ok exampleDomains ∧
      errorTotal g ["A", "B", "C"] exampleDomains = 2 ∧
      (runGenerate exampleSurroundings exampleConfig "m" [] ["x", "y"] .text =
          .ok (x.outcome false .text) ∧
        Contained g ["A", "B", "C"] exampleDomains x) ∧
      (x.outcome false .text).stdout = lines exampleLines ∧
      (x.outcome false .text).stderr = lines exampleErrorLines :=
  ⟨loadComponents_example, selectDomains_example, errorTotal_example,
    contained_runGenerate loadComponents_example selectDomains_example .text, written_example⟩

end CommandLine

end Wiring
