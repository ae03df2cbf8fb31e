import Wiring.Text.Digits

/-!
Log levels: how much is wanted, from nothing to everything.
-/

namespace Wiring

inductive LogLevel
  | off | error | warn | info | debug | trace
deriving DecidableEq, Repr

namespace LogLevel

def all : List LogLevel := [off, error, warn, info, debug, trace]

def name : LogLevel → String
  | off => "off"
  | error => "error"
  | warn => "warn"
  | info => "info"
  | debug => "debug"
  | trace => "trace"

/-- The number that a word writes in decimal digits, with or without a plus sign. -/
def number? (word : String) : Option Nat :=
  match word.toList with
  | '+' :: digits => Text.natural? digits
  | digits => Text.natural? digits

/-- The level that a word means: its place in the list of levels, or its name in any case. -/
def ofWord? (word : String) : Option LogLevel :=
  match number? word with
  | some n => all[n]?
  | none => all.find? fun level => level.name == String.ofList (word.toList.map Char.toLower)

end LogLevel

end Wiring
