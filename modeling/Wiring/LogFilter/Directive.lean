import Wiring.LogFilter.Field

/-!
# Log directives

    directive = level | target | [ target ] place [ "=" [ level ] ] | target "=" [ level ]
    place     = "[" span "]" | "[" [ span ] "{" field [ "=" value ] "}" "]"

A directive sets the level of the messages of a part of the program, of a span of its work, of those
with a field, or of all messages. One without a level wants everything. The blanks around a
directive do not count for how it is divided; the bytes of its parts are then counted from the first
blank on.
-/

namespace Wiring.LogFilter

structure Directive where
  target : Option String := none
  span : Option String := none
  field : Option FieldMatch := none
  level : LogLevel := .trace
deriving DecidableEq, Repr

namespace Directive

/-- What a directive is about. -/
def subject (d : Directive) : String :=
  d.target.getD "" ++
  if d.span.isNone && d.field.isNone then ""
  else "[" ++ d.span.getD "" ++ ((d.field.map fun f => "\x7b" ++ f.text ++ "\x7d").getD "") ++ "]"

def text (d : Directive) : String :=
  if d.target.isNone && d.span.isNone && d.field.isNone then d.level.name
  else d.subject ++ "=" ++ d.level.name

/-! ## Bytes -/

/-- The number of bytes of a text. -/
def size (cs : List Char) : Nat := cs.foldl (fun n c => n + c.utf8Size) 0

/-- Divides a text after its first `count` bytes; none if that is inside a character. -/
def splitBytes? (count : Nat) : List Char → Option (List Char × List Char)
  | [] => if count = 0 then some ([], []) else none
  | c :: cs =>
    if count = 0 then some ([], c :: cs)
    else if c.utf8Size ≤ count then
      (splitBytes? (count - c.utf8Size) cs).map fun (first, rest) => (c :: first, rest)
    else none

/-- The part of a text from byte `start` on. -/
def cutFrom? (source : List Char) (start : Nat) : Option String :=
  (splitBytes? start source).map (String.ofList ·.2)

/-- The part of a text from byte `start` up to byte `stop`. -/
def cut? (source : List Char) (start stop : Nat) : Option String := do
  let (_, rest) ← splitBytes? start source
  let (part, _) ← splitBytes? (stop - start) rest
  return String.ofList part

/-! ## Reading

The readers get the whole text as `source`, what they have to read as `cs`, and the number of the
bytes before that. -/

/-- Whether a target may begin with the character. -/
def isTargetStart (c : Char) : Bool :=
  Text.isAlphanumeric c || c == '_' || c == ':' || c == '-'

/-- Reads a level, which may be left out. -/
def readLevel? (source : List Char) (d : Directive) (start : Nat) : Option Directive := do
  let word ← cutFrom? source start
  if word.isEmpty then return d
  return { d with level := ← LogLevel.ofWord? word }

/-- Reads what follows the subject of a directive. -/
def readRest? (source : List Char) (d : Directive) (start : Nat) : List Char → Option Directive
  | [] => some d
  | '=' :: _ => readLevel? source d (start + 1)
  | _ => none

/-- Reads a field and the rest, given what follows the opening brace. -/
def readField? (source : List Char) (d : Directive) (start : Nat) (cs : List Char) :
    Option Directive := do
  let word := cs.takeWhile (· != '\x7d')
  let stop := start + size word
  match cs.drop word.length with
  | '\x7d' :: ']' :: rest =>
    let field ← FieldMatch.ofText? (← cut? source start stop)
    readRest? source { d with field := some field } (stop + 2) rest
  | _ => none

/-- Reads a span and the rest, given what follows the opening bracket. -/
def readSpan? (source : List Char) (d : Directive) (start : Nat) (cs : List Char) :
    Option Directive := do
  let word := cs.takeWhile fun c => c != ']' && c != '\x7b'
  let stop := start + size word
  let span ← cut? source start stop
  match cs.drop word.length with
  | ']' :: rest => readRest? source { d with span := some span } (stop + 1) rest
  | '\x7b' :: rest =>
    readField? source { d with span := if span.isEmpty then none else some span } (stop + 1) rest
  | _ => none

/-- A text without the blanks at its ends. -/
def trim (cs : List Char) : List Char :=
  (Text.skipBlanks (Text.skipBlanks cs).reverse).reverse

/-- Reads a directive. -/
def ofText? (text : String) : Option Directive := do
  let source := text.toList
  match trim source with
  | [] => none
  | '[' :: rest => readSpan? source {} 1 rest
  | c :: rest =>
    if !isTargetStart c then none
    let word := (c :: rest).takeWhile fun c => c != '=' && c != '['
    let stop := size word
    match (c :: rest).drop word.length with
    | [] =>
      match LogLevel.ofWord? text with
      | some level => return { level }
      | none => return { target := some text }
    | next :: rest =>
      let d : Directive := { target := some (← cut? source 0 stop) }
      if next == '[' then readSpan? source d (stop + 1) rest else readLevel? source d (stop + 1)

/-! ## Order -/

/-- Directives that say more come first: those with the longest target, then those with a span, then
those with a field; then the texts count, from the last to the first. -/
def compare (a b : Directive) : Ordering :=
  Ordering.swap <|
    (Ord.compare (a.target.map (·.utf8ByteSize)) (b.target.map (·.utf8ByteSize))).then <|
    (Ord.compare a.span.isSome b.span.isSome).then <|
    (Ord.compare a.field.isSome b.field.isSome).then <|
    (Ord.compare a.target b.target).then <|
    (Ord.compare a.span b.span).then <|
      match a.field, b.field with
      | some f, some g => f.compare g
      | _, _ => .eq

end Directive

end Wiring.LogFilter
