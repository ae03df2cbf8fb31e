import Wiring.LogFilter.Expression.Mode
import Wiring.Text.Digits

/-!
# Escapes

What a backslash and the characters behind it stand for in a regular expression.
-/

namespace Wiring.LogFilter.Expression

open Text (Rest Remainder next?)

inductive Escape
  | char (code : Nat)
  /-- A class of characters. -/
  | charClass
  /-- A place in the text. -/
  | place
deriving DecidableEq, Repr

/-- Reads `count` hexadecimal digits, which spacing may divide, and the code that they write after
the digits of `code`. -/
def readCode? (m : Mode) (count code : Nat) (cs : List Char) : Option (Nat × Remainder cs) :=
  match count with
  | 0 => if code.isValidChar then some (code, .all cs) else none
  | count + 1 => do
    let start := m.skip cs
    let (c, digit) ← next? start.1
    let (code, last) ← readCode? m count (16 * code + (← Text.hexDigit? c)) digit.1
    return (code, ((start.andThenRest digit).andThen last).toRemainder)

/-- The codes of the characters that have a letter for their escape. -/
def letterCodes : List (Char × Nat) :=
  [('a', 7), ('f', 12), ('t', 9), ('n', 10), ('r', 13), ('v', 11)]

/-- Reads an escape, given the characters after its backslash. -/
def readEscape? (m : Mode) (cs : List Char) : Option (Escape × Rest cs) :=
  match cs with
  | [] => none
  | c :: rest =>
    if c == 'x' then
      (code 2 rest).filter fun
        | (.char code, _) => m.unicode || code < 128
        | _ => false
    else if c == 'u' then code 4 rest
    else if c == 'U' then code 8 rest
    else if c ∈ ['d', 's', 'w'] then if m.unicode then none else some (.charClass, .tail rest)
    else if c ∈ ['A', 'z'] then some (.place, .tail rest)
    else if c ∈ ['b', 'B', '<', '>'] then
      if m.unicode || (c == 'b' && rest.head? == some '\x7b') then none
      else some (.place, .tail rest)
    else match letterCodes.lookup c with
      | some code => some (.char code, .tail rest)
      | none =>
        if c.toNat < 128 && !c.isAlphanum then some (.char c.toNat, .tail rest) else none
where
  code {c : Char} (count : Nat) (rest : List Char) : Option (Escape × Rest (c :: rest)) :=
    (readCode? m count 0 rest).map fun (code, last) => (.char code, (Rest.tail rest).andThen last)

end Wiring.LogFilter.Expression
