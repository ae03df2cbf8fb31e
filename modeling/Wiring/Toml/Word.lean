import Wiring.Toml.Fault

/-!
# Words

A document is made of words with signs and blanks between them. A word stands for a part of a key or
for a value, and is bare or between quotes: double quotes of a basic string, which has escape
sequences, or single quotes of a literal string, which has none. Each kind of string has a form over
several lines, between tripled quotes, in which a line end right after the opening quotes does not
count and up to two more quotes may stand before the last three.

How far a word goes does not hang on whether it is sound; what it means is told by other modules.
-/

namespace Wiring.Toml

open Text (Rest Remainder afterChar?)

/-! ## Blanks and line ends -/

def isSpace (c : Char) : Bool := c == ' ' || c == '\t'

/-- The characters after a line end at the start of `cs`. -/
def afterLineEnd? : (cs : List Char) → Option (Rest cs)
  | '\n' :: rest => some (.tail rest)
  | '\r' :: '\n' :: rest => some ((Rest.tail ('\n' :: rest)).andThenRest (.tail rest))
  | _ => none

theorem length_dropWhile_le (p : Char → Bool) (cs : List Char) :
    (cs.dropWhile p).length ≤ cs.length :=
  (List.dropWhile_suffix p).length_le

/-- What is left after the spaces and tabs at the start of `cs`. -/
def skipSpaces (cs : List Char) : Remainder cs :=
  ⟨cs.dropWhile isSpace, length_dropWhile_le isSpace cs⟩

/-- What is left of `cs` after a line end at its start, if there is one. -/
def skipLineEnd (cs : List Char) : Remainder cs :=
  match afterLineEnd? cs with
  | some rest => rest.toRemainder
  | none => .all cs

/-! ## Quotes -/

/-- The quotes around a string. -/
structure Quotes where
  isLiteral : Bool
  /-- Whether the quotes are tripled, and the string may span lines. -/
  isLong : Bool
deriving DecidableEq, Repr

namespace Quotes

def char (q : Quotes) : Char := if q.isLiteral then '\'' else '"'

/-- What is left after three quotes at the start of `cs`. -/
def afterThree? (quote : Char) (cs : List Char) : Option (Rest cs) := do
  let one ← afterChar? quote cs
  let two ← afterChar? quote one.1
  let three ← afterChar? quote two.1
  return one.andThenRest (two.andThenRest three)

/-- What is left after the opening quotes and a line end that does not count. -/
def opening? (q : Quotes) (cs : List Char) : Option (Rest cs) :=
  if q.isLong then (afterThree? q.char cs).map fun after => after.andThen (skipLineEnd after.1)
  else afterChar? q.char cs

/-- The quotes of the content in a run of closing quotes, and what is left after the run; none if
`cs` does not begin with closing quotes. -/
def closing? (q : Quotes) (cs : List Char) : Option (List Char × Rest cs) :=
  if q.isLong then
    (afterThree? q.char cs).map fun after =>
      let extra := ((after.1.take 2).takeWhile (· == q.char)).length
      (List.replicate extra q.char, after.andThen (.drop extra after.1))
  else (afterChar? q.char cs).map ([], ·)

end Quotes

/-- The content at the start of `cs`, and what is left after it and the closing quotes. -/
structure Extent (cs : List Char) where
  content : List Char
  isClosed : Bool
  rest : Remainder cs

/-- The extent with one more character at its start. -/
def Extent.cons {rest : List Char} (c : Char) (e : Extent rest) : Extent (c :: rest) :=
  { e with content := c :: e.content, rest := (Rest.tail rest).toRemainder.andThen e.rest }

/-- The extent of a string after its opening quotes. A quote behind a backslash does not close a
basic string, and a string on one line ends with the line at the latest. -/
def Quotes.extent (q : Quotes) (cs : List Char) : Extent cs :=
  match q.closing? cs with
  | some (extra, after) => ⟨extra, true, after.toRemainder⟩
  | none =>
    match cs with
    | [] => ⟨[], false, .all []⟩
    | '\\' :: c :: rest =>
      if !q.isLiteral && (c == '\\' || c == '"') then ((q.extent rest).cons c).cons '\\'
      else (q.extent (c :: rest)).cons '\\'
    | c :: rest =>
      if c == '\n' && !q.isLong then ⟨[], false, .all (c :: rest)⟩
      else (q.extent rest).cons c

/-! ## Words -/

structure Word where
  /-- The quotes around it; a word without them is bare. -/
  quotes : Option Quotes
  content : List Char
  isClosed : Bool
  /-- The characters of the document from the word on. -/
  text : List Char

/-- Whether a character may stand in a bare value. -/
def isBare (c : Char) : Bool :=
  !isSpace c && c ∉ ['\n', '\r', '#', '=', ',', '[', ']', '\x7b', '\x7d']

/-- Whether a character may begin a word behind blanks that belongs to the bare value before. -/
def isWordStart (c : Char) : Bool := isBare c && c ∉ ['.', '"', '\'']

/-- Whether a bare value goes on with `c` when `rest` follows. -/
def goesOn (c : Char) (rest : List Char) : Bool :=
  isBare c || (isSpace c && (rest.dropWhile isSpace).head?.any isWordStart)

/-- The bare value at the start of `cs`: characters, and the blanks between them. -/
def bareValue : List Char → List Char
  | [] => []
  | c :: rest => if goesOn c rest then c :: bareValue rest else []

/-- The bare part of a key at the start of `cs`. -/
def bareKey (cs : List Char) : List Char := cs.takeWhile fun c => isBare c && c != '.'

/-- Reads a word between quotes; none if `cs` does not begin with a quote. -/
def readQuoted? (cs : List Char) : Option (Word × Rest cs) := do
  let forms : List Quotes := [⟨false, true⟩, ⟨true, true⟩, ⟨false, false⟩, ⟨true, false⟩]
  let (q, start) ← forms.findSome? fun q => (q.opening? cs).map (q, ·)
  let extent := q.extent start.1
  return (⟨some q, extent.content, extent.isClosed, cs⟩, start.andThen extent.rest)

/-- Reads a word that is bare, as far as `bare` says, or between quotes. -/
def readWord (bare : List Char → List Char) (cs : List Char) : Word × Remainder cs :=
  match readQuoted? cs with
  | some (word, after) => (word, after.toRemainder)
  | none => (⟨none, bare cs, true, cs⟩, .drop (bare cs).length cs)

end Wiring.Toml
