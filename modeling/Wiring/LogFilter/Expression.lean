import Wiring.LogFilter.Expression.CharClass
import Wiring.Text.Alphabetic

/-!
# Regular expressions

Which texts are regular expressions that a log filter may hold. They stand between braces, so that
none counts repetitions, and their classes know only ASCII: what would need the tables of Unicode,
as `\d` does or letters of any case, is refused, and so is what could match half of a character.
Groups, repetitions and classes are not nested without limit.
-/

namespace Wiring.LogFilter.Expression

open Text (Rest Remainder)

/-! ## Groups -/

/-- What the opening of a parenthesis does. -/
inductive Opening
  /-- It begins a group, read as `mode` says. -/
  | group (mode : Mode) (name : Option String)
  /-- It is closed on the spot and changes how the rest of its group is read. -/
  | change (mode : Mode)
deriving DecidableEq, Repr

/-- Whether a group may have the name. -/
def isGroupName (name : List Char) : Bool :=
  let isNext (c : Char) : Bool := c ∈ ['_', '.', '[', ']'] || Text.isAlphanumeric c
  match name with
  | c :: rest => (c == '_' || Text.isAlphabetic c) && rest.all isNext
  | [] => false

/-- Reads the name of a group with `start` characters before it. The number is how many characters
have been read, here and in `readOpening?`. -/
def readGroupName? (m : Mode) (start : Nat) (cs : List Char) : Option (Opening × Nat) :=
  let name := (cs.drop start).takeWhile (· != '>')
  let stop := start + name.length
  if isGroupName name && stop < cs.length then
    some (.group m (String.ofList name), stop + 1)
  else none

/-- Reads what follows an opening parenthesis and the spacing behind it. No group looks around
itself. -/
def readOpening? (m : Mode) (cs : List Char) : Option (Opening × Nat) :=
  match cs with
  | '?' :: 'P' :: '<' :: _ => readGroupName? m 3 cs
  | '?' :: '<' :: _ => readGroupName? m 2 cs
  | '?' :: rest => do
    let items := rest.takeWhile fun c => c != ':' && c != ')'
    let mode ← m.change? items
    match rest[items.length]? with
    | some ':' => some (.group mode none, items.length + 2)
    | some _ => if items.isEmpty then none else some (.change mode, items.length + 2)
    | none => none
  | _ => some (.group m none, 0)

/-- What has been read of a group, or of the whole expression. -/
structure Group where
  mode : Mode
  /-- How deep the alternatives before the last bar are. -/
  branches : List Nat := []
  /-- How deep the parts behind it are, the last one first. -/
  parts : List Nat := []
  /-- Whether a sign of repetition may follow. -/
  isRepeatable : Bool := false
deriving DecidableEq, Repr

namespace Group

/-- The group with one more part, which may be repeated. -/
def add (g : Group) (depth : Nat) : Group :=
  { g with parts := depth :: g.parts, isRepeatable := true }

/-- The group with its last part repeated. -/
def repeatLast? (g : Group) : Option Group :=
  match g.parts with
  | depth :: parts => if g.isRepeatable then some (add { g with parts } (depth + 1)) else none
  | [] => none

/-- The group in another mode. The change counts as a part, but not one that may be repeated. -/
def change (g : Group) (mode : Mode) : Group :=
  { g with mode, parts := 0 :: g.parts, isRepeatable := false }

/-- The group with one more alternative. -/
def branch (g : Group) : Group :=
  { mode := g.mode, branches := depthOfAll g.parts :: g.branches }

/-- How deep the alternatives are together. -/
def depth (g : Group) : Nat := depthOfAll g.branch.branches

end Group

/-! ## Expressions -/

/-- What has been read of an expression. -/
structure State where
  inner : Group := { mode := {} }
  /-- The groups around it, the innermost first. -/
  outer : List Group := []
  names : List String := []
deriving DecidableEq, Repr

/-- Whether a character may stand by itself; a brace would count repetitions. -/
def isSoundChar (m : Mode) (c : Char) : Bool :=
  if c == '.' then m.unicode
  else if c == '^' || c == '$' then true
  else c != '\x7b' && m.comparesChars

/-- Reads a part of an expression, or a sign that opens, closes or divides groups. -/
def readPart? (s : State) (cs : List Char) : Option (State × Rest cs) :=
  let mode := s.inner.mode
  match cs with
  | [] => none
  | '(' :: rest => do
    let start := mode.skip rest
    let (opening, length) ← readOpening? mode start.1
    let after := (Rest.tail rest).andThen (start.andThen (.drop length start.1))
    match opening with
    | .group mode name =>
      if name.any (· ∈ s.names) then none
      else some (⟨{ mode }, s.inner :: s.outer, name.toList ++ s.names⟩, after)
    | .change mode => some ({ s with inner := s.inner.change mode }, after)
  | ')' :: rest =>
    match s.outer with
    | next :: outer =>
      some ({ s with inner := next.add (s.inner.depth + 1), outer }, .tail rest)
    | [] => none
  | '|' :: rest => some ({ s with inner := s.inner.branch }, .tail rest)
  | '[' :: rest => do
    let (depth, last) ← readClass? mode rest
    return ({ s with inner := s.inner.add depth }, (Rest.tail rest).andThenRest last)
  | '\\' :: rest => do
    let (e, last) ← readEscape? mode rest
    if (e matches .char _) && !mode.comparesChars then none
    else some ({ s with inner := s.inner.add 0 }, (Rest.tail rest).andThenRest last)
  | c :: rest =>
    if c ∈ ['?', '*', '+'] then
      let length := if rest.head? = some '?' then 1 else 0
      s.inner.repeatLast?.map fun inner =>
        ({ s with inner }, (Rest.tail rest).andThen (.drop length rest))
    else if isSoundChar mode c then some ({ s with inner := s.inner.add 0 }, .tail rest)
    else none

/-- Reads the rest of an expression. -/
def readParts? (s : State) (cs : List Char) : Option State := do
  let start := s.inner.mode.skip cs
  if start.1.isEmpty then return s
  let (s, after) ← readPart? s start.1
  readParts? s (start.andThenRest after).1
termination_by cs.length
decreasing_by exact Rest.length_lt _

/-- How deep an expression may be. -/
def maxDepth : Nat := 250

/-- Whether a text is an expression that a filter may hold. -/
def isSound (text : String) : Bool :=
  (readParts? {} text.toList).any fun s => s.outer.isEmpty && s.inner.depth ≤ maxDepth

end Wiring.LogFilter.Expression
