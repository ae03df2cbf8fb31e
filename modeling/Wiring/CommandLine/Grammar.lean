import Wiring.CommandLine.Argument

/-!
# Command line grammars

A level of the command line, which is the program or one of its commands, takes options, perhaps one
operand, and perhaps commands of its own. A value is settled only when the next option that is known
or the end of the level is reached; until then it is pending, and an argument that is in error by
itself comes first.
-/

namespace Wiring.CommandLine

/-- Why a command line is refused, or what it asks for instead of a command. -/
inductive Usage
  | help
  | version
  /-- Nothing was given at all. -/
  | nothingGiven
  | missingCommand
  | unknownCommand
  | unknownArgument
  | invalidValue
  /-- Options that exclude each other, or one that was given twice. -/
  | conflict
  /-- A value for an option that takes none. -/
  | unwantedValue
  | missingOperand
deriving DecidableEq, Repr

/-- What an option does. -/
inductive Effect
  | showHelp
  | showVersion
  /-- It is given or not. -/
  | flag
  /-- It has one value, of which some are accepted. -/
  | value (accepts : String → Bool)
  /-- It has a value each time that it is given. -/
  | values

structure Switch where
  long : String
  short : Option Char
  effect : Effect

/-- A level of the command line. -/
structure Grammar where
  switches : List Switch
  /-- The operand, with the values that are accepted. -/
  operand : Option (String → Bool)
  commands : List String

/-- The name under which the operand is given. -/
def operandName : String := ""

/-- A value that waits to be settled. -/
structure Pending where
  name : String
  /-- Whether the value may be given again. -/
  repeatable : Bool
  accepts : String → Bool
  /-- The value, once an argument has given it. -/
  value : Option String

/-- What has been read of a level. -/
structure Level where
  /-- The settled options with their values, in order; a flag has an empty value. -/
  given : List (String × String) := []
  pending : Option Pending := none
  /-- Whether the arguments that follow are no options. -/
  escaped : Bool := false
  hasOperand : Bool := false

namespace Level

def isGiven (l : Level) (name : String) : Bool := l.given.any (·.1 == name)

/-- The first value given under a name. -/
def value? (l : Level) (name : String) : Option String := l.given.lookup name

def values (l : Level) (name : String) : List String :=
  (l.given.filter (·.1 == name)).map (·.2)

/-- Whether the next argument may be the value of an option. -/
def awaitsValue (l : Level) : Bool := l.pending.any (·.value.isNone)

/-- Settles a value. -/
def settleValue (l : Level) (p : Pending) : Except Usage Level :=
  match p.value with
  | none => .error .invalidValue
  | some value =>
    if !p.repeatable && l.isGiven p.name then .error .conflict
    else if p.accepts value then
      .ok { l with given := l.given ++ [(p.name, value)], pending := none }
    else .error .invalidValue

/-- Settles the pending value if there is one. -/
def settle (l : Level) : Except Usage Level :=
  match l.pending with
  | some p => l.settleValue p
  | none => .ok l

end Level

namespace Switch

/-- The pending value of an option that takes values; none for other options. -/
def pending? (s : Switch) (value : Option String) : Option Pending :=
  match s.effect with
  | .value accepts => some ⟨s.long, false, accepts, value⟩
  | .values => some ⟨s.long, true, fun _ => true, value⟩
  | _ => none

/-- Gives an option that takes no value. -/
def give (s : Switch) (l : Level) : Except Usage Level := do
  let l ← l.settle
  match s.effect with
  | .showHelp => throw .help
  | .showVersion => throw .version
  | _ =>
    if l.isGiven s.long then throw .conflict
    return { l with given := l.given ++ [(s.long, "")] }

/-- Gives an option that takes a value: at once if the value is attached, else with the next
argument. -/
def giveValue (l : Level) (p : Pending) : Except Usage Level := do
  let l ← l.settle
  match p.value with
  | some _ => l.settleValue p
  | none => return { l with pending := some p }

end Switch

namespace Grammar

/-- Reads a long option. -/
def readLong (g : Grammar) (l : Level) (name : String) (value : Option String) :
    Except Usage Level :=
  match g.switches.find? (·.long == name) with
  | none => .error .unknownArgument
  | some s =>
    match s.pending? value, value with
    | some p, _ => Switch.giveValue l p
    | none, some _ => .error .unwantedValue
    | none, none => s.give l

/-- The value attached to a short option; an equals sign before it does not count. -/
def shortValue? : List Char → Option String
  | [] => none
  | '=' :: value => some (String.ofList value)
  | value => some (String.ofList value)

/-- Reads a cluster of short options, of which the last may have the rest as its value. -/
def readShort (g : Grammar) (l : Level) : List Char → Except Usage Level
  | [] => .ok l
  | c :: cs =>
    match g.switches.find? (·.short == some c) with
    | none => .error .unknownArgument
    | some s =>
      match s.pending? (shortValue? cs) with
      | some p => Switch.giveValue l p
      | none => do readShort g (← s.give l) cs

/-- Reads an argument that is no option. -/
def readOperand (g : Grammar) (l : Level) (text : String) : Except Usage Level :=
  match g.operand with
  | none =>
    if l.escaped && text ∈ g.commands then .error .unknownArgument else .error .unknownCommand
  | some accepts =>
    if l.hasOperand then .error .unknownArgument
    else do
      let l ← l.settle
      return { l with
        pending := some ⟨operandName, false, accepts, some text⟩
        hasOperand := true }

/-- Reads one argument. -/
def readArgument (g : Grammar) (l : Level) (text : String) : Except Usage Level :=
  if l.escaped then g.readOperand l text
  else match Argument.ofText text with
    | .escape => .ok { l with escaped := true }
    | .long name value => g.readLong l name value
    | .short letters => g.readShort l letters
    | .plain text =>
      match l.pending with
      | some p =>
        if p.value.isNone then .ok { l with pending := some { p with value := some text } }
        else g.readOperand l text
      | none => g.readOperand l text

/-- Reads arguments up to a command, which is handed back with the arguments after it. -/
def read (g : Grammar) (l : Level) :
    List String → Except Usage (Level × Option (String × List String))
  | [] => .ok (l, none)
  | text :: rest =>
    if !l.escaped && !l.awaitsValue && text ∈ g.commands then .ok (l, some (text, rest))
    else do read g (← g.readArgument l text) rest

end Grammar

end Wiring.CommandLine
