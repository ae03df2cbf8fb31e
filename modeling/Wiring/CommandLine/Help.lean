import Wiring.CommandLine.Grammar

/-!
What the program says of a command line that asks for help, or that it cannot follow.
-/

namespace Wiring.CommandLine

def versionText : String := "provgen 0.3.2"

def helpText : String :=
  "\n".intercalate
    [ "Generate configuration providers for dependency-injection graphs",
      "",
      "Usage: provgen [OPTIONS] <COMMAND>",
      "",
      "Commands:",
      "  generate  Generate provider specifications",
      "  sites     List injection sites reachable from each component",
      "  tree      Print the injection graph of a component",
      "  expand    Expand a qualifier name template",
      "  help      Print this text",
      "",
      "Arguments:",
      "  generate <MODEL> [--component <GLOB>]... [--domain <NAME>]... [-f|--format text|json]",
      "  sites <MODEL> [--component <GLOB>]... [--qualified] [-f|--format text|json]",
      "  tree <MODEL> [--component <GLOB>]...",
      "  expand <TEMPLATE>",
      "",
      "Options:",
      "  -v, --verbose        Enable debug output",
      "  -q, --quiet          Only log errors",
      "  -c, --config <PATH>  Path to a provgen.toml configuration file",
      "  -h, --help           Print help",
      "  -V, --version        Print version" ]

namespace Usage

/-- What is wrong with the command line; none where it asks for a text. -/
def fault? : Usage → Option String
  | help | version | nothingGiven => none
  | missingCommand => some "a command is missing"
  | unknownCommand => some "there is no such command"
  | unknownArgument => some "there is no such argument"
  | invalidValue => some "a value is missing or not accepted"
  | conflict => some "an option is given twice, or with one that it excludes"
  | unwantedValue => some "a value is given to an option that takes none"
  | missingOperand => some "an argument is missing"

def text (u : Usage) : String :=
  match u, u.fault? with
  | version, _ => versionText
  | _, some fault => "error: " ++ fault ++ "\n\nFor more information, try '--help'."
  | _, none => helpText

/-- Whether the command line asks for the text. -/
def isAsked : Usage → Bool
  | help | version => true
  | _ => false

def exitCode (u : Usage) : Nat := if u.isAsked then 0 else 2

end Usage

end Wiring.CommandLine
