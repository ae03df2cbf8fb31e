import Wiring.Toml.Quoted

/-!
# Statements

A document is a sequence of statements, each on a line of its own unless its value spans several:
the header of a table, a header that appends a table, or a key with its value. Arrays and tables in
braces may hold line ends and comments between their items and around equals signs, and a comma
after the last item. They are not nested without limit.

Statements are read without a look at what their words mean: a document with a fault in its
structure is reported as such, even if a word before has a fault as well.
-/

namespace Wiring.Toml

open Text (Rest Remainder afterChar?)

/-! ## Comments -/

/-- The characters of a comment, without a line end behind it. -/
def commentText (cs : List Char) : List Char :=
  let line := cs.takeWhile (· != '\n')
  if line.getLast? = some '\r' && line.length < cs.length then line.dropLast else line

/-- What is left after a comment if there is one at the start of `cs`. -/
def skipComment (cs : List Char) : Except Stop (Remainder cs) :=
  match cs with
  | '#' :: rest =>
    if (commentText rest).all isPlain then
      .ok ((Rest.tail rest).toRemainder.andThen (.drop (commentText rest).length rest))
    else .error ⟨.invalidCharacter, cs⟩
  | cs => .ok (.all cs)

/-- What is left after blanks, line ends and comments. -/
def skipFiller (cs : List Char) : Except Stop (Remainder cs) := do
  let start := skipSpaces cs
  let comment ← skipComment start.1
  let after := start.andThen comment
  match afterLineEnd? after.1 with
  | some rest =>
    let line := after.andThenRest rest
    let last ← skipFiller line.1
    return line.toRemainder.andThen last
  | none => return after
termination_by cs.length
decreasing_by exact Rest.length_lt _

/-- What is left after the rest of a line, which must be blank or a comment. -/
def endLine (cs : List Char) : Except Stop (Remainder cs) := do
  let start := skipSpaces cs
  let comment ← skipComment start.1
  let after := start.andThen comment
  if after.1.isEmpty then return after
  match afterLineEnd? after.1 with
  | some rest => return (after.andThenRest rest).toRemainder
  | none => throw ⟨.trailingText, after.1⟩

/-! ## Keys -/

/-- A dotted key: the path to its last part, and that part. -/
structure Key where
  path : List Word
  name : Word

/-- The key with one more part at its start. -/
def Key.within (part : Word) (k : Key) : Key := { k with path := part :: k.path }

/-- The characters of the document from the key on. -/
def Key.text (k : Key) : List Char := (k.path.head?.getD k.name).text

/-- Reads a key and the blanks around it. Parts may be missing, as far as the structure goes. -/
def readKey (cs : List Char) : Key × Remainder cs :=
  let start := skipSpaces cs
  let (part, last) := readWord bareKey start.1
  let after := start.andThen last
  let next := after.andThen (skipSpaces after.1)
  match afterChar? '.' next.1 with
  | some dot =>
    let after := next.andThenRest dot
    let (key, last) := readKey after.1
    (key.within part, (after.andThen last).toRemainder)
  | none => (⟨[], part⟩, next)
termination_by cs.length
decreasing_by exact Rest.length_lt _

/-- Reads a key, the equals sign behind it and what stands before the value. What may stand around
the sign is what `skip` skips. -/
def readKeyEquals (skip : (cs : List Char) → Except Stop (Remainder cs)) (cs : List Char) :
    Except Stop (Key × Rest cs) := do
  let (key, last) := readKey cs
  let after := last.andThen (← skip last.1)
  match afterChar? '=' after.1 with
  | some rest =>
    let before := after.andThenRest rest
    return (key, before.andThen (← skip before.1))
  | none => throw ⟨.missingEquals, after.1⟩

/-! ## Values -/

inductive Value
  | word (w : Word)
  | array (items : List Value)
  | table (entries : List (Key × Value))

/-- How many arrays and tables in braces may be inside each other. -/
def maxDepth : Nat := 80

mutual

/-- Reads a value in which arrays and tables may be `room` deep. -/
def readValue (room : Nat) (cs : List Char) : Except Stop (Value × Rest cs) :=
  match afterChar? '[' cs, afterChar? '\x7b' cs with
  | some inside, _ => do
    if room = 0 then throw ⟨.tooDeep, cs⟩
    let (items, last) ← readItems (room - 1) inside.1
    return (.array items, inside.andThenRest last)
  | none, some inside => do
    if room = 0 then throw ⟨.tooDeep, cs⟩
    let (entries, last) ← readEntries (room - 1) inside.1
    return (.table entries, inside.andThenRest last)
  | none, none =>
    let (word, last) := readWord bareValue cs
    if h : last.1.length < cs.length then .ok (.word word, ⟨last.1, h⟩)
    else .error ⟨.missingValue, cs⟩
termination_by (cs.length, 0)
decreasing_by
  · exact Prod.Lex.left _ _ (Rest.length_lt _)
  · exact Prod.Lex.left _ _ (Rest.length_lt _)

/-- Reads the items of an array up to and with the closing bracket. -/
def readItems (room : Nat) (cs : List Char) : Except Stop (List Value × Rest cs) := do
  let start ← skipFiller cs
  match afterChar? ']' start.1 with
  | some rest => return ([], start.andThenRest rest)
  | none =>
    let (item, rest) ← readValue room start.1
    let after := start.andThenRest rest
    let filler ← skipFiller after.1
    let next := after.andThen filler
    match afterChar? ',' next.1, afterChar? ']' next.1 with
    | some comma, _ =>
      let after := next.andThenRest comma
      let (items, last) ← readItems room after.1
      return (item :: items, after.andThenRest last)
    | none, some last => return ([item], next.andThenRest last)
    | none, none => throw ⟨.unclosedArray, next.1⟩
termination_by (cs.length, 1)
decreasing_by
  · exact Prod.Lex.right' _ (Remainder.length_le _) Nat.zero_lt_one
  · exact Prod.Lex.left _ _ (Rest.length_lt _)

/-- Reads the entries of a table in braces up to and with the closing brace. -/
def readEntries (room : Nat) (cs : List Char) : Except Stop (List (Key × Value) × Rest cs) := do
  let start ← skipFiller cs
  match afterChar? '\x7d' start.1 with
  | some rest => return ([], start.andThenRest rest)
  | none =>
    let (key, rest) ← readKeyEquals skipFiller start.1
    let before := start.andThenRest rest
    let (value, rest) ← readValue room before.1
    let after := before.andThenRest rest
    let filler ← skipFiller after.1
    let next := after.andThen filler
    match afterChar? ',' next.1, afterChar? '\x7d' next.1 with
    | some comma, _ =>
      let after := next.andThenRest comma
      let (entries, last) ← readEntries room after.1
      return ((key, value) :: entries, after.andThenRest last)
    | none, some last => return ([(key, value)], next.andThenRest last)
    | none, none => throw ⟨.unclosedTable, next.1⟩
termination_by (cs.length, 1)
decreasing_by
  · exact Prod.Lex.left _ _ (Rest.length_lt _)
  · exact Prod.Lex.left _ _ (Rest.length_lt _)

end

/-! ## Statements -/

inductive Statement
  | entry (key : Key) (value : Value)
  | header (key : Key)
  | appendHeader (key : Key)

/-- Reads the key of a header and the closing bracket behind it. -/
def readHeader (cs : List Char) : Except Stop (Key × Rest cs) :=
  let (key, after) := readKey cs
  match afterChar? ']' after.1 with
  | some rest => .ok (key, after.andThenRest rest)
  | none => .error ⟨.unclosedHeader, after.1⟩

/-- Reads an entry. Before the end of a line the value may be missing, as far as the structure
goes. -/
def readEntry (cs : List Char) : Except Stop (Statement × Rest cs) := do
  let (key, before) ← readKeyEquals (.ok <| skipSpaces ·) cs
  if before.1.head?.all (· ∈ ['\n', '\r', '#']) then
    let (word, last) := readWord bareValue before.1
    return (.entry key (.word word), before.andThen last)
  else
    let (value, last) ← readValue maxDepth before.1
    return (.entry key value, before.andThenRest last)

/-- Reads a statement, which is not blank. -/
def readStatement (cs : List Char) : Except Stop (Statement × Rest cs) :=
  match afterChar? '[' cs with
  | some inside =>
    match afterChar? '[' inside.1 with
    | some inner => do
      let (key, closed) ← readHeader inner.1
      match afterChar? ']' closed.1 with
      | some last =>
        return (.appendHeader key, inside.andThenRest (inner.andThenRest (closed.andThenRest last)))
      | none => throw ⟨.unclosedHeader, closed.1⟩
    | none => do
      let (key, last) ← readHeader inside.1
      return (.header key, inside.andThenRest last)
  | none => readEntry cs

/-- Reads the statements of a document. -/
def readStatements (cs : List Char) : Except Stop (List Statement) := do
  let start ← skipFiller cs
  if start.1.isEmpty then return []
  let (statement, rest) ← readStatement start.1
  let after := start.andThenRest rest
  let line ← endLine after.1
  let next := after.andThen line
  return statement :: (← readStatements next.1)
termination_by cs.length
decreasing_by exact Rest.length_lt _

end Wiring.Toml
