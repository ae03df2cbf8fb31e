import Wiring.CommandLine.Grammar

/-!
# Invocations

What the program is asked to do. The options `--verbose`, `--quiet` and `--config` may stand before
or after the command; of two configurations the one after the command counts.
-/

namespace Wiring.CommandLine

inductive OutputFormat
  | text
  | json
deriving DecidableEq, Repr

inductive Command
  | generate (model : String) (components domains : List String) (format : OutputFormat)
  | sites (model : String) (components : List String) (qualified : Bool) (format : OutputFormat)
  | tree (model : String) (components : List String)
  | expand (template : String)
deriving DecidableEq, Repr

structure Invocation where
  command : Command
  verbose : Bool
  quiet : Bool
  config : Option String
deriving DecidableEq, Repr

/-! ## Grammars -/

def isPath (value : String) : Bool := !value.isEmpty

def globalSwitches : List Switch :=
  [ ⟨"verbose", 'v', .flag⟩, ⟨"quiet", 'q', .flag⟩, ⟨"config", 'c', .value isPath⟩,
    ⟨"help", 'h', .showHelp⟩ ]

def componentSwitch : Switch := ⟨"component", none, .values⟩

def formatSwitch : Switch := ⟨"format", 'f', .value (· ∈ ["text", "json"])⟩

/-- The grammar of a command with these options. -/
def commandGrammar (switches : List Switch) (accepts : String → Bool) : Grammar :=
  ⟨globalSwitches ++ switches, some accepts, []⟩

/-- The commands with their grammars. -/
def commandGrammars : List (String × Grammar) :=
  [ ("generate", commandGrammar
      [componentSwitch, ⟨"domain", none, .values⟩, formatSwitch] isPath),
    ("sites", commandGrammar
      [componentSwitch, ⟨"qualified", none, .flag⟩, formatSwitch] isPath),
    ("tree", commandGrammar [componentSwitch] isPath),
    ("expand", commandGrammar [] fun _ => true) ]

/-- The command that explains the others. -/
def helpCommand : String := "help"

def commandNames : List String := commandGrammars.map (·.1) ++ [helpCommand]

def programGrammar : Grammar :=
  ⟨globalSwitches ++ [⟨"version", 'V', .showVersion⟩], none, commandNames⟩

/-! ## Reading -/

/-- Checks that the options that exclude each other are not both given. -/
def checkConflicts (l : Level) : Except Usage Unit :=
  if l.isGiven "verbose" && l.isGiven "quiet" then .error .conflict else .ok ()

/-- What is asked of the help command. -/
def helpUsage : List String → Usage
  | [] => .help
  | [name] => if name ∈ commandNames then .help else .unknownCommand
  | _ => .unknownCommand

def formatOf (l : Level) : OutputFormat :=
  if l.value? "format" = some "json" then .json else .text

/-- The command of this name, as its level gives it. -/
def commandOf (name : String) (l : Level) (operand : String) : Command :=
  let components := l.values "component"
  if name = "generate" then .generate operand components (l.values "domain") (formatOf l)
  else if name = "sites" then .sites operand components (l.isGiven "qualified") (formatOf l)
  else if name = "tree" then .tree operand components
  else .expand operand

/-- Reads the level of a command. -/
def readCommand (name : String) (grammar : Grammar) (args : List String) :
    Except Usage (Level × Command) := do
  let (l, _) ← grammar.read {} args
  let l ← l.settle
  checkConflicts l
  match l.value? operandName with
  | some operand => return (l, commandOf name l operand)
  | none => throw .missingOperand

/-- Reads a command line, the name of the program left out. -/
def Invocation.read (args : List String) : Except Usage Invocation := do
  let (outer, next) ← programGrammar.read {} args
  match next with
  | none =>
    let outer ← outer.settle
    throw (if outer.given.isEmpty then .nothingGiven else .missingCommand)
  | some (name, rest) =>
    match commandGrammars.lookup name with
    | none => throw (helpUsage rest)
    | some grammar =>
      let (inner, command) ← readCommand name grammar rest
      let outer ← outer.settle
      checkConflicts outer
      return {
        command
        verbose := outer.isGiven "verbose" || inner.isGiven "verbose"
        quiet := outer.isGiven "quiet" || inner.isGiven "quiet"
        config := (inner.value? "config").or (outer.value? "config") }

end Wiring.CommandLine
