import Wiring.Text.Digits
import Wiring.Toml.Word

/-!
# Quoted strings

What the content of a string stands for.
-/

namespace Wiring.Toml

open Text (Rest Remainder)

/-- Whether a character may stand for itself on one line: anything but a control character, tabs
excepted. -/
def isPlain (c : Char) : Bool :=
  c == '\t' || (32 ≤ c.toNat && c.toNat != 127)

/-- What is left after the blanks and line ends at the start of `cs`. -/
def skipLines : (cs : List Char) → Remainder cs
  | ' ' :: rest | '\t' :: rest | '\n' :: rest =>
    (Rest.tail rest).toRemainder.andThen (skipLines rest)
  | '\r' :: '\n' :: rest =>
    ((Rest.tail ('\n' :: rest)).andThenRest (.tail rest)).toRemainder.andThen (skipLines rest)
  | cs => .all cs

/-- What is left after a backslash that ends a line: blanks up to the line end, and the blanks and
line ends after it. -/
def afterContinuation? (cs : List Char) : Option (Rest cs) :=
  (afterLineEnd? (skipSpaces cs).1).map fun rest =>
    ((skipSpaces cs).andThenRest rest).andThen (skipLines rest.1)

/-- The character with the code that the first `count` characters write in hexadecimal digits. -/
def hexCode? (count : Nat) (cs : List Char) : Option Char := do
  let digits ← (cs.take count).mapM Text.hexDigit?
  let code := digits.foldl (fun n digit => 16 * n + digit) 0
  if digits.length = count ∧ code.isValidChar then some (Char.ofNat code) else none

/-- Reads an escape sequence, given the characters after its backslash. -/
def readEscape? (cs : List Char) : Option (Char × Rest cs) :=
  match cs with
  | 'b' :: rest => some ('\x08', .tail rest)
  | 't' :: rest => some ('\t', .tail rest)
  | 'n' :: rest => some ('\n', .tail rest)
  | 'f' :: rest => some ('\x0c', .tail rest)
  | 'r' :: rest => some ('\r', .tail rest)
  | 'e' :: rest => some ('\x1b', .tail rest)
  | '"' :: rest => some ('"', .tail rest)
  | '\\' :: rest => some ('\\', .tail rest)
  | 'x' :: rest => hex 2 rest
  | 'u' :: rest => hex 4 rest
  | 'U' :: rest => hex 8 rest
  | _ => none
where
  hex {c : Char} (count : Nat) (rest : List Char) : Option (Char × Rest (c :: rest)) :=
    (hexCode? count rest).map (·, (Rest.tail rest).andThen (.drop count rest))

/-- The text that the content of a string stands for. -/
def Quotes.decode (q : Quotes) (cs : List Char) : Except Fault (List Char) :=
  match cs with
  | [] => .ok []
  | '\\' :: rest =>
    if q.isLiteral then do return '\\' :: (← q.decode rest)
    else match if q.isLong then afterContinuation? rest else none, readEscape? rest with
      | some after, _ => q.decode after.1
      | none, some (c, after) => do return c :: (← q.decode after.1)
      | none, none => .error .invalidEscape
  | '\r' :: '\n' :: rest =>
    if q.isLong then do return '\r' :: '\n' :: (← q.decode rest)
    else .error .invalidCharacter
  | c :: rest =>
    if isPlain c || (q.isLong && c == '\n') then do return c :: (← q.decode rest)
    else .error .invalidCharacter
termination_by cs.length
decreasing_by
  · exact Nat.lt_succ_self _
  · exact Nat.lt_succ_of_lt (Rest.length_lt _)
  · exact Nat.lt_succ_of_lt (Rest.length_lt _)
  · exact Nat.lt_succ_of_lt (Nat.lt_succ_self _)
  · exact Nat.lt_succ_self _

/-- The text of a string in the quotes `q`. -/
def Word.string (w : Word) (q : Quotes) : Except Stop String :=
  if w.isClosed then ((q.decode w.content).map String.ofList).mapError (⟨·, w.text⟩)
  else .error ⟨.unclosedString, w.text⟩

end Wiring.Toml
