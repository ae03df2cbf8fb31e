import Wiring.LogFilter.Expression.Escape

/-!
# Bracketed classes

A class has characters, ranges, named classes and other classes for its members, and operators
between them. In a class that compares no characters there is nothing but empty classes.
-/

namespace Wiring.LogFilter.Expression

open Text (Rest Remainder afterChar?)

/-- What has been read of a class. -/
structure Members where
  /-- How deep what stands before the last operator is, if there is an operator. -/
  operand : Option Nat := none
  /-- How deep the members behind it are. -/
  depths : List Nat := []
deriving DecidableEq, Repr

namespace Members

def add (s : Members) (depth : Nat) : Members := { s with depths := depth :: s.depths }

/-- An operator is deeper by one than its operands. -/
def depth (s : Members) : Nat :=
  match s.operand with
  | some operand => max operand (depthOfAll s.depths) + 1
  | none => depthOfAll s.depths

/-- The members before an operator. -/
def operate (s : Members) : Members := { operand := some s.depth }

end Members

/-! ## Members -/

def className (name : String) : Bool :=
  name ∈ ["alnum", "alpha", "ascii", "blank", "cntrl", "digit", "graph", "lower", "print", "punct",
    "space", "upper", "word", "xdigit"]

/-- Whether a named class is negated, and its length without the bracket that opens it. -/
def named? (cs : List Char) : Option (Bool × Nat) :=
  let isNegated := cs.take 2 == [':', '^']
  let start := if isNegated then 2 else 1
  let name := (cs.drop start).takeWhile (· != ':')
  let length := start + name.length
  if cs.head? == some ':' && className (String.ofList name) &&
      (cs.drop length).take 2 == [':', ']']
  then some (isNegated, length + 2) else none

/-- Reads a character of a class or an escape. -/
def readItem? (m : Mode) (cs : List Char) : Option (Escape × Rest cs) :=
  let item : Option (Escape × Rest cs) :=
    match cs with
    | [] => none
    | '\\' :: rest =>
      (readEscape? m rest).map fun (e, last) => (e, (Rest.tail rest).andThenRest last)
    | c :: rest => some (.char c.toNat, .tail rest)
  item.filter fun
    | (.char code, _) => m.unicode || code < 128
    | _ => true

/-- The character that says whether a minus sign before `cs` makes a range. The sign of a comment is
passed over, but not the comment. -/
def afterMinus? (m : Mode) (cs : List Char) : Option Char :=
  if m.spaced then
    match Text.skipBlanks cs with
    | '#' :: rest => (Text.skipBlanks rest).head?
    | cs => cs.head?
  else cs.head?

/-- Reads an item of a class or a range between two characters. -/
def readRange? (m : Mode) (cs : List Char) : Option (Rest cs) := do
  let (first, item) ← readItem? m cs
  let after := item.andThen (m.skip item.1)
  let single := if first = .place then none else some after
  match afterChar? '-' after.1 with
  | some minus =>
    if afterMinus? m minus.1 ∈ [some ']', some '-'] then single
    else
      let start := minus.andThen (m.skip minus.1)
      let (last, item) ← readItem? m start.1
      match first, last with
      | .char a, .char b =>
        if a ≤ b then some (after.andThenRest (start.andThenRest item)) else none
      | _, _ => none
  | none => single

/-! ## Classes -/

/-- What is left after minus signs and the spacing behind each, and how many there are. -/
def readMinuses (m : Mode) (cs : List Char) : Nat × Remainder cs :=
  match m.skipChar? '-' cs with
  | some after =>
    let (count, last) := readMinuses m after.1
    (count + 1, after.toRemainder.andThen last)
  | none => (0, .all cs)
termination_by cs.length
decreasing_by exact Rest.length_lt _

/-- Reads the start of a class, given the characters after its bracket: the sign that negates it,
and minus signs or a bracket that stand for themselves. Without Unicode a negated class would match
parts of characters. -/
def readStart? (m : Mode) (cs : List Char) : Option (Members × Remainder cs) :=
  let start := m.skip cs
  match m.skipChar? '^' start.1 with
  | some sign =>
    if m.unicode then (literals sign.1).map fun (members, last) =>
      (members, (start.andThenRest (sign.andThen last)).toRemainder)
    else none
  | none => (literals start.1).map fun (members, last) => (members, start.andThen last)
where
  literals (cs : List Char) : Option (Members × Remainder cs) :=
    match readMinuses m cs, m.skipChar? ']' cs with
    | (0, last), none => some ({}, last)
    | (0, _), some bracket => guarded { depths := [0] } bracket.toRemainder
    | (count + 1, last), _ => guarded { depths := List.replicate (count + 1) 0 } last
  guarded {cs : List Char} (members : Members) (last : Remainder cs) :
      Option (Members × Remainder cs) :=
    if m.comparesChars then some (members, last) else none

/-- What one member, operator or bracket makes of the classes that are open. -/
inductive Step (cs : List Char)
  /-- The outermost class ends, and is so deep. -/
  | close (depth : Nat) (after : Rest cs)
  | goOn (inner : Members) (outer : List Members) (after : Rest cs)

/-- Reads a member, an operator or a bracket in the class `inner`, which is inside the classes
`outer`, the innermost first. -/
def readMember? (m : Mode) (inner : Members) (outer : List Members) (cs : List Char) :
    Option (Step cs) :=
  match cs with
  | [] => none
  | '[' :: rest =>
    match named? rest with
    | some (isNegated, length) =>
      if m.comparesChars && (m.unicode || !isNegated) then
        some (.goOn (inner.add 0) outer ((Rest.tail rest).andThen (.drop length rest)))
      else none
    | none => (readStart? m rest).map fun (start, last) =>
      .goOn start (inner :: outer) ((Rest.tail rest).andThen last)
  | ']' :: rest =>
    match outer with
    | [] => some (.close (inner.depth + 1) (.tail rest))
    | next :: outer => some (.goOn (next.add (inner.depth + 1)) outer (.tail rest))
  | c :: rest =>
    if c ∈ ['&', '-', '~'] && rest.head? == some c then
      some (.goOn inner.operate outer ((Rest.tail rest).andThen (.drop 1 rest)))
    else if m.comparesChars then
      (readRange? m (c :: rest)).map (.goOn (inner.add 0) outer)
    else none

/-- Reads what is left of the classes that are open; the number is how deep the outermost is. -/
def readMembers? (m : Mode) (inner : Members) (outer : List Members) (cs : List Char) :
    Option (Nat × Rest cs) := do
  let start := m.skip cs
  match ← readMember? m inner outer start.1 with
  | .close depth after => return (depth, start.andThenRest after)
  | .goOn inner outer after =>
    let next := start.andThenRest after
    let (depth, last) ← readMembers? m inner outer next.1
    return (depth, next.andThenRest last)
termination_by cs.length
decreasing_by exact Rest.length_lt _

/-- Reads a class, given the characters after its bracket, and how deep it is. -/
def readClass? (m : Mode) (cs : List Char) : Option (Nat × Rest cs) := do
  let (members, start) ← readStart? m cs
  let (depth, last) ← readMembers? m members [] start.1
  return (depth, start.andThenRest last)

end Wiring.LogFilter.Expression
