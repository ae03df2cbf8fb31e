import Wiring.Data.Basic
import Wiring.Text.Digits
import Wiring.Toml.Moment
import Wiring.Toml.Word

/-!
# Bare values

The values that are written without quotes: booleans, numbers, dates and times. Numbers are kept as
they are written, so that their size does not count, and an integer with underscores is not looked
at between them: it is enough that each underscore stands between digits.
-/

namespace Wiring.Toml.Scalar

/-! ## Underscores -/

def isHexDigit (c : Char) : Bool := (Text.hexDigit? c).isSome

/-- The parts of a text between its underscores. -/
def parts (cs : List Char) : List (List Char) :=
  cs.foldr (fun c ps =>
    match ps with
    | p :: ps => if c == '_' then [] :: p :: ps else (c :: p) :: ps
    | [] => [[c]]) [[]]

/-- Whether a part may stand behind an underscore, and before one if it is not the last. -/
def areSeparated (isDigit : Char → Bool) : List (List Char) → Bool
  | [] => true
  | [last] => last.head?.any isDigit
  | part :: rest =>
    part.head?.any isDigit && part.getLast?.any isDigit && areSeparated isDigit rest

/-- Whether each underscore of a number stands between digits. The first part may have a sign. -/
def isSeparated (isDigit : Char → Bool) (cs : List Char) : Bool :=
  match parts cs with
  | first :: second :: rest =>
    first.getLast?.any isDigit && areSeparated isDigit (second :: rest)
  | _ => true

/-! ## Numbers -/

/-- What is left after a sign. -/
def unsigned : List Char → List Char
  | '+' :: rest | '-' :: rest => rest
  | cs => cs

def isDigitOrMark (c : Char) : Bool := c.isDigit || c == '_'

/-- Whether `cs` has a digit, and nothing else but underscores. -/
def hasDigits (cs : List Char) : Bool := cs.all isDigitOrMark && cs.any Char.isDigit

/-- Whether `cs` begins with a zero that another digit follows. -/
def hasLeadingZero (cs : List Char) : Bool :=
  cs.head? == some '0' && (cs.filter Char.isDigit).length != 1

def isExponentMark (c : Char) : Bool := c == 'e' || c == 'E'

/-- Whether `cs` is an exponent with its mark, or nothing. -/
def isExponent : List Char → Bool
  | [] => true
  | c :: digits => isExponentMark c && hasDigits (unsigned digits)

/-- Whether `cs`, which has no sign, has the parts of a float. -/
def hasFloatParts (cs : List Char) : Bool :=
  let whole := cs.takeWhile isDigitOrMark
  hasDigits whole && !hasLeadingZero whole &&
  match cs.dropWhile isDigitOrMark with
  | '.' :: rest =>
    hasDigits (rest.takeWhile (!isExponentMark ·)) &&
      isExponent (rest.dropWhile (!isExponentMark ·))
  | rest => isExponent rest

def isRadixDigit : Char → Char → Bool
  | 'x', c => isHexDigit c
  | 'o', c => '0' ≤ c && c ≤ '7'
  | 'b', c => c == '0' || c == '1'
  | _, _ => false

/-- Whether `cs` is a number. -/
def isNumber (cs : List Char) : Bool :=
  let body := unsigned cs
  if body ∈ ["0".toList, "inf".toList, "nan".toList] then true
  else match cs with
    | '0' :: radix :: digits =>
      if radix ∈ ['x', 'o', 'b'] then
        digits.all (fun c => isRadixDigit radix c || c == '_') && isSeparated isHexDigit digits
      else isDecimal cs body
    | _ => isDecimal cs body
where
  isDecimal (cs body : List Char) : Bool :=
    let rest := body.dropWhile Char.isDigit
    if rest.isEmpty then !body.isEmpty && body.head? != some '0'
    else if ' ' ∈ rest then false
    else if rest.any fun c => c == '.' || isExponentMark c then
      hasFloatParts body && isSeparated Char.isDigit cs
    else rest.head? == some '_' && body.head? != some '0' && isSeparated isHexDigit cs

/-! ## Values -/

/-- The key under which a date or a time is kept, as the only entry of a table. -/
def momentKey : String := "$__toml_private_datetime"

/-- Whether `cs` is written like a date or a time: digits and then a minus sign or a colon. -/
def isMomentLike (cs : List Char) : Bool :=
  match cs.dropWhile Char.isDigit with
  | c :: _ => cs.head?.any Char.isDigit && (c == '-' || c == ':')
  | [] => false

/-- The value that a bare text writes. -/
def read? (cs : List Char) : Option Data :=
  if cs = "true".toList then some (.boolean true)
  else if cs = "false".toList then some (.boolean false)
  else if isMomentLike cs then
    (Moment.ofChars? cs).map fun m => .table [(momentKey, .string m.text)]
  else if isNumber cs then some (.scalar (String.ofList cs))
  else none

end Wiring.Toml.Scalar
