import Wiring.Pattern.Basic
import Wiring.Text.Rest

/-!
Reading name patterns. The position of a fault counts the characters of the pattern before it.
-/

namespace Wiring.Pattern

inductive Fault
  /-- More than two stars in a row. -/
  | tooManyStars
  /-- Two stars that are not a component by themselves. -/
  | partialComponent
  /-- A bracket without an end. -/
  | openRange
deriving DecidableEq, Repr

def Fault.message : Fault → String
  | tooManyStars => "wildcards are either regular `*` or recursive `**`"
  | partialComponent => "recursive wildcards must form a single path component"
  | openRange => "invalid range pattern"

structure SyntaxError where
  fault : Fault
  position : Nat
deriving DecidableEq, Repr

def SyntaxError.message (e : SyntaxError) : String :=
  "Pattern syntax error near position " ++ toString e.position ++ ": " ++ e.fault.message

/-- The ranges that the characters between brackets write. -/
def ranges : List Char → List CharRange
  | a :: '-' :: b :: rest => ⟨a, b⟩ :: ranges rest
  | c :: rest => ⟨c, c⟩ :: ranges rest
  | [] => []

/-- Reads the characters of brackets up to the closing one, which is not the first of them. -/
def readRanges (cs : List Char) : Option (List CharRange × Text.Rest cs) :=
  match cs with
  | [] => none
  | c :: rest =>
    match h : rest.dropWhile (· != ']') with
    | _ :: after => some (ranges (c :: rest.takeWhile (· != ']')), ⟨after, by
        have := (List.dropWhile_suffix (· != ']') (l := rest)).length_le
        rw [h] at this
        simp at this ⊢; omega⟩)
    | [] => none

/-- Reads the tokens of the end part `cs` of a pattern, which begins at `position` and after the
character `previous`. -/
def readTokens (position : Nat) (previous : Option Char) (cs : List Char) :
    Except SyntaxError Pattern :=
  match cs with
  | [] => .ok []
  | '?' :: rest => (.anyChar :: ·) <$> readTokens (position + 1) '?' rest
  | '*' :: '*' :: '*' :: _ => .error ⟨.tooManyStars, position + 2⟩
  | '*' :: '*' :: rest =>
    if previous = none ∨ previous = some '/' then
      match rest with
      | [] => .ok [.anyComponents]
      | '/' :: rest => (.anyComponents :: ·) <$> readTokens (position + 3) '/' rest
      | _ :: _ => .error ⟨.partialComponent, position + 2⟩
    else .error ⟨.partialComponent, position - 1⟩
  | '*' :: rest => (.anyText :: ·) <$> readTokens (position + 1) '*' rest
  | '[' :: '!' :: rest =>
    match readRanges rest with
    | some (ranges, after) =>
      have := after.2
      (.noneOf ranges :: ·) <$>
        readTokens (position + 2 + (rest.length - after.1.length)) ']' after.1
    | none => .error ⟨.openRange, position⟩
  | '[' :: rest =>
    match readRanges rest with
    | some (ranges, after) =>
      have := after.2
      (.oneOf ranges :: ·) <$>
        readTokens (position + 1 + (rest.length - after.1.length)) ']' after.1
    | none => .error ⟨.openRange, position⟩
  | c :: rest => (.char c :: ·) <$> readTokens (position + 1) c rest
termination_by cs.length
decreasing_by all_goals grind

/-- Reads a pattern. -/
def parse (text : String) : Except SyntaxError Pattern := readTokens 0 none text.toList

end Wiring.Pattern
