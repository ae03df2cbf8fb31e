import Wiring.Text.Alphanumeric
import Wiring.Text.Blank
import Wiring.Text.Rest
import Wiring.TypeRef.Basic

/-!
# Reading type references

    type      = ( "?" [ bound ] | name [ "<" type { "," type } ">" ] ) { "[" "]" }
    bound     = ( "extends" | "super" ) blank type
    name      = a run of letters, digits, "_", "$" and "." with no dot at either end

Blanks may stand between any two symbols. `void` and the primitive keywords are names that take no
type arguments. A reader hands back the characters it has not read, together with the fact that
they are fewer than it was given; the offset of a fault is the number of bytes before the
characters that were still unread when it was found.
-/

namespace Wiring.TypeRef

open Text (Rest)

/-- What is wrong with a text that is no type reference. -/
inductive Fault
  | noName
  | openArguments
  | openBracket
  | trailingInput
deriving DecidableEq, Repr

def Fault.message : Fault → String
  | noName => "expected type name"
  | openArguments => "expected ',' or '>'"
  | openBracket => "expected ']'"
  | trailingInput => "unexpected trailing input"

/-- A fault and the characters that were unread when it was found. -/
structure Stop where
  fault : Fault
  rest : List Char
deriving DecidableEq, Repr

def isNameChar (c : Char) : Bool :=
  Text.isAlphanumeric c || c == '_' || c == '$' || c == '.'

/-- Whether a run of name characters is a name. -/
def isName (run : List Char) : Bool :=
  run.head? != none && run.head? != some '.' && run.getLast? != some '.'

/-- Reads `symbol` after any blanks. -/
def readSymbol? (symbol : Char) (cs : List Char) : Option (Rest cs) :=
  match h : Text.skipBlanks cs with
  | c :: rest =>
    if c = symbol then
      some ⟨rest, by have := Text.length_skipBlanks_le cs; rw [h] at this; exact this⟩
    else none
  | [] => none

theorem isName_ne_nil {run : List Char} (h : isName run = true) : run ≠ [] := by
  rintro rfl; simp [isName] at h

/-- Reads the longest run of name characters after any blanks, which must be a name. -/
def readName (cs : List Char) : Except Stop (String × Rest cs) :=
  let start := Text.skipBlanks cs
  let run := start.takeWhile isNameChar
  let rest := start.dropWhile isNameChar
  if h : isName run then
    .ok (String.ofList run, ⟨rest, by
      have split : run.length + rest.length = (Text.skipBlanks cs).length := by
        rw [← List.length_append, List.takeWhile_append_dropWhile]
      have pos := List.length_pos_iff.2 (isName_ne_nil h)
      have := Text.length_skipBlanks_le cs
      omega⟩)
  else .error ⟨.noName, rest⟩

/-- The part of `cs` after `word`, if `cs` begins with it and a blank follows. -/
def afterKeyword? (word cs : List Char) : Option (List Char) :=
  if word.isPrefixOf cs && (cs.drop word.length).head?.any Text.isBlank then
    some (cs.drop word.length)
  else none

/-- Whether a wildcard is bounded from above or from below. -/
inductive Bound
  | upper
  | lower
deriving DecidableEq, Repr

def Bound.keyword : Bound → List Char
  | upper => "extends".toList
  | lower => "super".toList

def Bound.apply : Bound → TypeRef → TypeRef
  | upper => wildcardExtends
  | lower => wildcardSuper

/-- The keyword of a wildcard's bound and what follows it. -/
def bound? (cs : List Char) : Option (Bound × Text.Remainder cs) :=
  let start := Text.skipBlanks cs
  match h : afterKeyword? Bound.upper.keyword start,
    h' : afterKeyword? Bound.lower.keyword start with
  | some rest, _ => some (.upper, ⟨rest, shorter h⟩)
  | none, some rest => some (.lower, ⟨rest, shorter h'⟩)
  | none, none => none
where
  shorter {word rest : List Char} (h : afterKeyword? word (Text.skipBlanks cs) = some rest) :
      rest.length ≤ cs.length := by
    have := Text.length_skipBlanks_le cs
    unfold afterKeyword? at h
    split at h
    · cases h; rw [List.length_drop]; omega
    · contradiction

/-- The type that `name` denotes with these arguments. -/
def ofName (name : String) (args : List TypeRef) : TypeRef :=
  if name = "void" then void
  else match Primitive.ofKeyword? name with
    | some kind => primitive kind
    | none => declared name args

/-- Whether type arguments may follow `name`. -/
def takesArguments (name : String) : Bool :=
  name != "void" && (Primitive.ofKeyword? name).isNone

/-- Reads the brackets behind a component type. -/
def readBrackets (component : TypeRef) (cs : List Char) :
    Except Stop (TypeRef × Text.Remainder cs) :=
  match readSymbol? '[' cs with
  | none => .ok (component, .all cs)
  | some inside =>
    match readSymbol? ']' inside.1 with
    | none => .error ⟨.openBracket, Text.skipBlanks inside.1⟩
    | some closing => do
      let after := inside.andThenRest closing
      let (t, rest) ← readBrackets (.array component) after.1
      return (t, after.toRemainder.andThen rest)
termination_by cs.length
decreasing_by exact Rest.length_lt _

mutual

/-- Reads one type. -/
def readType (cs : List Char) : Except Stop (TypeRef × Rest cs) := do
  let (t, head) ← readHead cs
  let (t, rest) ← readBrackets t head.1
  return (t, head.andThen rest)
termination_by (cs.length, 1)
decreasing_by exact Prod.Lex.right _ Nat.zero_lt_one

/-- Reads one type up to the brackets that may follow. -/
def readHead (cs : List Char) : Except Stop (TypeRef × Rest cs) :=
  match readSymbol? '?' cs with
  | some mark =>
    match bound? mark.1 with
    | none => .ok (wildcard, mark)
    | some (bound, keyword) => do
      let after := mark.andThen keyword
      let (t, rest) ← readType after.1
      return (bound.apply t, after.andThenRest rest)
  | none => do
    let (name, after) ← readName cs
    if takesArguments name then
      match readSymbol? '<' after.1 with
      | none => return (ofName name [], after)
      | some opening =>
        let inside := after.andThenRest opening
        let (args, rest) ← readArguments inside.1
        return (ofName name args, inside.andThenRest rest)
    else return (ofName name [], after)
termination_by (cs.length, 0)
decreasing_by
  · exact Prod.Lex.left _ _ (Rest.length_lt _)
  · exact Prod.Lex.left _ _ (Rest.length_lt _)

/-- Reads type arguments up to and with the closing `>`. -/
def readArguments (cs : List Char) : Except Stop (List TypeRef × Rest cs) := do
  let (arg, next) ← readType cs
  match readSymbol? ',' next.1, readSymbol? '>' next.1 with
  | some comma, _ =>
    let after := next.andThenRest comma
    let (args, rest) ← readArguments after.1
    return (arg :: args, after.andThenRest rest)
  | none, some closing => return ([arg], next.andThenRest closing)
  | none, none => throw ⟨.openArguments, Text.skipBlanks next.1⟩
termination_by (cs.length, 2)
decreasing_by
  · exact Prod.Lex.right _ Nat.one_lt_two
  · exact Prod.Lex.left _ _ (Rest.length_lt _)

end

/-- A text that is no type reference: what is wrong with it, and how many bytes precede the
fault. -/
structure ParseError where
  input : String
  fault : Fault
  offset : Nat
deriving DecidableEq, Repr

def ParseError.reason (e : ParseError) : String :=
  e.fault.message ++ " at offset " ++ toString e.offset

/-- The number of bytes of `whole` before its end part `rest`. -/
def offsetOf (whole : String) (rest : List Char) : Nat :=
  whole.utf8ByteSize - (String.ofList rest).utf8ByteSize

/-- Reads a whole text as one type reference. -/
def parse (input : String) : Except ParseError TypeRef :=
  match readType input.toList with
  | .error stop => .error ⟨input, stop.fault, offsetOf input stop.rest⟩
  | .ok (t, rest) =>
    match Text.skipBlanks rest.1 with
    | [] => .ok t
    | c :: cs => .error ⟨input, .trailingInput, offsetOf input (c :: cs)⟩

end Wiring.TypeRef
