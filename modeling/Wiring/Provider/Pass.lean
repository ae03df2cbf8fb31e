import Wiring.Conversion.Java
import Wiring.Parameters.Table
import Wiring.Provider.Basic
import Wiring.Provider.MethodName
import Wiring.Site.Collect
import Wiring.Template.Expansion

/-!
# Generation passes

A pass turns the sites of one domain into providers, one for each representation. A site of the
domain whose qualifier has no name ends the pass. A name that cannot be expanded costs its site
only; a representation without a conversion, or whose method name an earlier one has taken, costs
its provider only. Each of these is reported as an error.
-/

namespace Wiring

/-- The settings of a pass. -/
structure Generator where
  model : Model
  sources : Template.Sources
  /-- Whether the names in qualifiers are templates. -/
  expandNames : Bool := true
  chain : Conversion.Chain := .standard
  render : Conversion → String → String := Conversion.Java.render

/-- The counts of a pass. -/
structure Summary where
  /-- The sites of the domain, those included whose name could not be expanded. -/
  sites : Nat
  parameters : Nat
  providers : Nat
  /-- The representations without a provider. -/
  skipped : Nat
deriving DecidableEq, Repr

/-- What a finished pass yields. -/
structure Pass where
  providers : List Provider
  summary : Summary
deriving DecidableEq, Repr

/-- What a pass reports, and what it yields unless a structural error ended it. -/
structure PassReport where
  diagnostics : List Diagnostic
  outcome : Except Error Pass

namespace Generator

/-- Whether a site belongs to a domain. -/
def isQualified (d : Domain) (s : Site) : Bool :=
  s.qualifier.any d.matchesAnnotation

/-! ## Requests -/

/-- The request of a site; `none` where its name cannot be expanded, which is reported. -/
def request (g : Generator) (s : Site) : Except Error (Except Diagnostic Request) :=
  match s.qualifierName with
  | none =>
    .error (.malformedQualifier ((s.qualifier.map (·.type)).getD "") s.element)
  | some name =>
    if g.expandNames then
      match Template.expand g.sources name with
      | .ok expanded => .ok (.ok (.ofSite s expanded))
      | .error e => .ok (.error ⟨.error, e.message, some s.element⟩)
    else .ok (.ok (.ofSite s name))

/-! ## Providers -/

/-- What became of a representation. -/
inductive Emission
  | provider (p : Provider)
  | skipped (reason : Error) (element : Option String)
deriving DecidableEq, Repr

namespace Emission

def provider? : Emission → Option Provider
  | provider p => some p
  | skipped .. => none

def diagnostic? : Emission → Option Diagnostic
  | provider _ => none
  | skipped reason element => some ⟨.error, reason.message, element⟩

end Emission

/-- The name that a looked-up value has in expressions. -/
def lookupValue : String := "value"

/-- The provider of a representation. -/
def provider (g : Generator) (d : Domain) (r : RepresentationGroup) (conversion : Conversion) :
    Provider where
  domain := d.name
  name := r.key.name
  default := r.key.default
  providedType := r.key.type
  sourceType := d.sourceType r.key.type
  required := r.required
  nullable := r.nullable && !r.required && r.key.default.isNone
  conversion
  expression := g.render conversion lookupValue
  methodName := MethodName.compose d.methodTag r.key.name r.key.type r.key.default
  sites := r.requests.map (·.element)

/-- What becomes of some representations, given the method names that are taken and the
representations that took them. -/
def emit (g : Generator) (d : Domain) (taken : List (String × Representation)) :
    List RepresentationGroup → List Emission
  | [] => []
  | r :: rs =>
    let source := d.sourceType r.key.type
    match g.chain.resolve g.model r.key.type source with
    | none =>
      .skipped (.conversionUnavailable r.key.name source.text r.key.type.text) r.element? ::
        emit g d taken rs
    | some conversion =>
      let p := g.provider d r conversion
      match taken.lookup p.methodName with
      | some previous =>
        .skipped (.providerNameCollision p.methodName r.key.text previous.text) r.element? ::
          emit g d taken rs
      | none => .provider p :: emit g d ((p.methodName, r.key) :: taken) rs

/-! ## Passes -/

/-- The results that are errors. -/
def errors {ε α : Type} (rs : List (Except ε α)) : List ε :=
  rs.filterMap fun
    | .error e => some e
    | .ok _ => none

/-- The results that are no errors. -/
def values {ε α : Type} (rs : List (Except ε α)) : List α :=
  rs.filterMap Except.toOption

/-- The pass over some sites for one domain. -/
def pass (g : Generator) (d : Domain) (sites : List Site) : PassReport :=
  let qualified := sites.filter (isQualified d)
  let (resolved, unnamed) := untilFailure g.request qualified
  match unnamed with
  | some e => ⟨errors resolved, .error e⟩
  | none =>
    let requests := values resolved
    let table := ParameterTable.build d requests
    let emissions := g.emit d [] table.representations
    let providers := emissions.filterMap Emission.provider?
    let failures := emissions.filterMap Emission.diagnostic?
    { diagnostics := errors resolved ++ ParameterTable.warnings requests ++ failures
      outcome := .ok
        { providers
          summary :=
            { sites := qualified.length
              parameters := table.parameters.length
              providers := providers.length
              skipped := failures.length } } }

/-- The pass over the sites below the component `root`. -/
def run (g : Generator) (d : Domain) (root : String) : PassReport :=
  match g.model.sites root with
  | .error e => ⟨[], .error e⟩
  | .ok sites => g.pass d sites

end Generator

end Wiring
