import Wiring.CommandLine.Invocation
import Wiring.Config.Load
import Wiring.Data.Json
import Wiring.Data.Report
import Wiring.Graph.OfWalk
import Wiring.Graph.Tree
import Wiring.Model.Load
import Wiring.Model.Select

/-!
# Commands

What the commands write. A component that cannot be walked does not keep the others from being
reported, but the command fails in the end.
-/

namespace Wiring.CommandLine

/-- What a command may look at. -/
structure Surroundings where
  files : Files
  environment : Environment
  /-- Whether the output is styled. -/
  styled : Text.Style.Enabled

/-- What a command has written, and why it failed if it did. -/
structure Outcome where
  stdout : String := ""
  stderr : String := ""
  failure : Option Failure := none

namespace Outcome

def failed (f : Failure) : Outcome := { failure := some f }

def exitCode (o : Outcome) : Nat := if o.failure.isSome then 1 else 0

/-- All that is written to the error stream: what the command has written, and the report of its
failure. -/
def errorText (o : Outcome) (styled : Text.Style.Enabled) : String :=
  match o.failure with
  | some f => o.stderr ++ (Report.ofFailure f).terminal styled
  | none => o.stderr

end Outcome

/-- The outcome of what may fail before it writes anything. -/
def outcomeOf (r : Except Failure Outcome) : Outcome :=
  match r with
  | .ok o => o
  | .error f => .failed f

/-- The texts as lines. -/
def lines (texts : List String) : String := String.join (texts.map (· ++ "\n"))

/-- The model and the names of the components that a command is about. -/
def loadComponents (s : Surroundings) (path : String) (patterns : List String) :
    Except Failure (Model × List String) := do
  if !(s.files path).isPresent then
    throw (.ofMessage ("Model path " ++ path ++ " does not exist"))
  let model ← Model.load s.files path
  return (model, ← model.select patterns)

/-! ## Providers -/

/-- A finished pass for one component and one domain. -/
structure ComponentPass where
  component : String
  domain : String
  pass : Pass

def ComponentPass.data (p : ComponentPass) : Data :=
  .table
    [ ("component", .string p.component),
      ("domain", .string p.domain),
      ("summary", p.pass.summary.data),
      ("providers", .ofList Provider.data p.pass.providers) ]

/-- The passes and diagnostics of a command. -/
structure Generation where
  passes : List ComponentPass
  diagnostics : List Diagnostic

/-- The pass for one component and one domain. A structural error is reported. -/
def generateDomain (g : Generator) (component : String) (sites : List Site) (d : Domain) :
    Generation :=
  let report := g.pass d sites
  match report.outcome with
  | .ok pass => ⟨[⟨component, d.name, pass⟩], report.diagnostics⟩
  | .error e => ⟨[], report.diagnostics ++ [⟨.error, e.message, some component⟩]⟩

/-- Some generations as one. -/
def Generation.join (gs : List Generation) : Generation :=
  ⟨gs.flatMap (·.passes), gs.flatMap (·.diagnostics)⟩

/-- The passes for one component. -/
def generateComponent (g : Generator) (domains : List Domain) (component : String) : Generation :=
  match g.model.sites component with
  | .ok sites => .join (domains.map (generateDomain g component sites))
  | .error e => ⟨[], [⟨.error, e.message, some component⟩]⟩

/-- How a provider is delivered, in the style of its word. -/
def policy (styled : Text.Style.Enabled) (p : Provider) : String :=
  if p.required then Text.Style.red.paint styled "required"
  else if p.nullable then Text.Style.yellow.paint styled "nullable"
  else Text.Style.green.paint styled "defaulted"

/-- The lines about a provider. -/
def providerLines (styled : Text.Style.Enabled) (p : Provider) : List String :=
  [ "  " ++ Text.Style.bold.paint styled p.methodName ++ " " ++ p.providedType.text ++ " " ++
      p.name ++
      (match p.default with
        | some value => " = \"" ++ value ++ "\""
        | none => "") ++
      " (" ++ policy styled p ++ ")",
    "      " ++ Text.Style.dimmed.paint styled p.expression ]

/-- The lines about a pass; none if it has no providers. -/
def passLines (styled : Text.Style.Enabled) (p : ComponentPass) : List String :=
  if p.pass.providers.isEmpty then []
  else
    (Text.Style.bold.paint styled p.component ++ " " ++
      Text.Style.cyan.paint styled ("[" ++ p.domain ++ "]")) ::
    p.pass.providers.flatMap (providerLines styled)

namespace Generation

def data (g : Generation) : Data :=
  .table
    [ ("passes", .ofList ComponentPass.data g.passes),
      ("diagnostics", .ofList Diagnostic.data g.diagnostics) ]

/-- The line that counts what was done. -/
def totals (g : Generation) : String :=
  toString (g.passes.foldl (fun n p => n + p.pass.summary.providers) 0) ++ " provider(s), " ++
  toString (Diagnostic.count g.diagnostics .warning) ++ " warning(s), " ++
  toString (Diagnostic.count g.diagnostics .error) ++ " error(s)"

/-- What is written of a generation. Errors among its diagnostics make the command fail. -/
def outcome (g : Generation) (styled : Text.Style.Enabled) (format : OutputFormat) : Outcome :=
  let errors := Diagnostic.count g.diagnostics .error
  let failure :=
    if errors = 0 then none
    else some (Failure.ofMessage ("Generation reported " ++ toString errors ++ " error(s)"))
  match format with
  | .json => { stdout := g.data.json ++ "\n", failure }
  | .text =>
    { stdout := lines (g.passes.flatMap (passLines styled) ++ [g.totals])
      stderr := lines (g.diagnostics.map (·.terminal styled))
      failure }

end Generation

def runGenerate (s : Surroundings) (c : Config) (path : String)
    (patterns domains : List String) (format : OutputFormat) : Except Failure Outcome := do
  let (model, components) ← loadComponents s path patterns
  let domains ← c.selectDomains domains
  let g : Generator :=
    { model
      sources := ⟨s.environment.lookup, c.property⟩
      expandNames := c.expandNames }
  return (Generation.join (components.map (generateComponent g domains))).outcome s.styled format

/-! ## Sites -/

/-- The sites of a component, or the error that kept it from being walked. -/
structure ComponentSites where
  component : String
  error : Option Error
  sites : List Site

def componentSites (m : Model) (qualified : Bool) (component : String) : ComponentSites :=
  match m.sites component with
  | .ok sites =>
    ⟨component, none, if qualified then sites.filter (·.qualifier.isSome) else sites⟩
  | .error e => ⟨component, some e, []⟩

/-- The failure of a command that could not walk so many components. -/
def walkFailure (count : Nat) : Option Failure :=
  if count = 0 then none
  else some (.ofMessage (toString count ++ " component(s) could not be walked"))

namespace ComponentSites

def data (c : ComponentSites) : Data :=
  .table <|
    ("component", .string c.component) ::
    (c.error.map fun e => ("error", Data.string e.message)).toList ++
    [("sites", .ofList Site.data c.sites)]

def siteLines (styled : Text.Style.Enabled) (c : ComponentSites) : List String :=
  (Text.Style.bold.paint styled c.component ++ " (" ++ toString c.sites.length ++ " site(s))") ::
  c.sites.map fun site => "  " ++ site.text

/-- The line about the error, if there is one. -/
def errorLines (styled : Text.Style.Enabled) (c : ComponentSites) : List String :=
  (c.error.map fun e =>
    "  " ++ Text.Style.red.strong.paint styled "error:" ++ " " ++ e.message).toList

end ComponentSites

def runSites (s : Surroundings) (path : String) (patterns : List String) (qualified : Bool)
    (format : OutputFormat) : Except Failure Outcome := do
  let (model, components) ← loadComponents s path patterns
  let reports := components.map (componentSites model qualified)
  let failure := walkFailure (reports.filter (·.error.isSome)).length
  return match format with
    | .json => { stdout := (Data.ofList ComponentSites.data reports).json ++ "\n", failure }
    | .text =>
      { stdout := lines (reports.flatMap (·.siteLines s.styled))
        stderr := lines (reports.flatMap (·.errorLines s.styled))
        failure }

/-! ## Trees -/

/-- The tree of a component, and whether its graph has cycles. -/
def treeText (styled : Text.Style.Enabled) (component : String) (g : Graph) : String :=
  g.tree component ++
  if g.hasCycles then Text.Style.yellow.paint styled "(graph contains cycles)" ++ "\n" else ""

def treeOutcome (s : Surroundings) (m : Model) (component : String) : Outcome :=
  match m.graph component with
  | .ok g => { stdout := treeText s.styled component g }
  | .error e =>
    { stderr := Text.Style.red.strong.paint s.styled "error:" ++ " " ++ component ++ ": " ++
        e.message ++ "\n"
      failure := some (.ofError e) }

def runTree (s : Surroundings) (path : String) (patterns : List String) :
    Except Failure Outcome := do
  let (model, components) ← loadComponents s path patterns
  let outcomes := components.map (treeOutcome s model)
  return {
    stdout := String.join (outcomes.map (·.stdout))
    stderr := String.join (outcomes.map (·.stderr))
    failure := walkFailure (outcomes.filter (·.failure.isSome)).length }

/-! ## Expansion -/

def runExpand (s : Surroundings) (c : Config) (template : String) : Except Failure Outcome := do
  let text ← (Template.expand ⟨s.environment.lookup, c.property⟩ template).mapError Failure.ofError
  return { stdout := text ++ "\n" }

/-! ## Commands -/

def Command.run (s : Surroundings) (c : Config) : Command → Except Failure Outcome
  | generate path patterns domains format => runGenerate s c path patterns domains format
  | sites path patterns qualified format => runSites s path patterns qualified format
  | tree path patterns => runTree s path patterns
  | expand template => runExpand s c template

/-- Does what the program is asked to do. -/
def Invocation.run (s : Surroundings) (i : Invocation) : Outcome :=
  outcomeOf do
    let config ← Config.load s.files s.environment i.config
    i.command.run s config

/-- The paths that the program may have to look at. -/
def Invocation.paths (i : Invocation) (e : Environment) : List String :=
  (Config.namedPath? e i.config).toList ++ [Config.localPath] ++
  match i.command with
  | .generate path .. | .sites path .. | .tree path _ => [path]
  | .expand _ => []

end Wiring.CommandLine
