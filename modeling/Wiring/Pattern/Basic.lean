/-!
# Name patterns

    ?          any character
    *          any characters
    **         whole components: nothing, or everything up to and with some `/`, or everything
    [abc-x]    one of these characters; [!abc-x] any other character

`**` must make up a component of the pattern by itself. All other characters stand for themselves.
-/

namespace Wiring

/-- The characters from `first` to `last`; one character is a range of its own. -/
structure CharRange where
  first : Char
  last : Char
deriving DecidableEq, Repr

def CharRange.contains (r : CharRange) (c : Char) : Bool := r.first ≤ c && c ≤ r.last

/-- A part of a pattern. -/
inductive PatternToken
  | char (c : Char)
  | anyChar
  | oneOf (ranges : List CharRange)
  | noneOf (ranges : List CharRange)
  /-- `*` -/
  | anyText
  /-- `**`, with the `/` behind it if there is one. -/
  | anyComponents
deriving DecidableEq, Repr

abbrev Pattern := List PatternToken

namespace PatternToken

/-- Whether a token that stands for one character stands for `c`. -/
def accepts (c : Char) : PatternToken → Bool
  | char d => c == d
  | anyChar => true
  | oneOf ranges => ranges.any (·.contains c)
  | noneOf ranges => !ranges.any (·.contains c)
  | anyText | anyComponents => false

end PatternToken

namespace Pattern

/-- The end parts of `cs`, from `cs` itself to the empty one. -/
def suffixes : List Char → List (List Char)
  | [] => [[]]
  | c :: cs => (c :: cs) :: suffixes cs

/-- The end parts of `cs` that begin a component, and the empty one. -/
def componentStarts : List Char → List (List Char)
  | [] => [[]]
  | '/' :: cs => cs :: componentStarts cs
  | _ :: cs => componentStarts cs

/-- The longest of some texts. -/
def longest? : List (List Char) → Option (List Char)
  | [] => none
  | cs :: rest =>
    match longest? rest with
    | some ds => some (if cs.length < ds.length then ds else cs)
    | none => some cs

/-- What a token may leave of texts that all are end parts of one. What a star leaves of the longest
it may leave of the others too. -/
def leftAfter (rests : List (List Char)) : PatternToken → List (List Char)
  | .anyText => ((longest? rests).map suffixes).getD []
  | .anyComponents => rests ++ ((longest? rests).map componentStarts).getD []
  | token => rests.filterMap fun
    | c :: cs => if token.accepts c then some cs else none
    | [] => none

/-- Whether the pattern stands for all of a text. -/
def accepts (p : Pattern) (text : String) : Bool :=
  (p.foldl leftAfter [text.toList]).any (·.isEmpty)

end Pattern

end Wiring
