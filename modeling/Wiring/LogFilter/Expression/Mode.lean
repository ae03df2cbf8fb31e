import Wiring.Text.Blank
import Wiring.Text.Rest

/-!
# How an expression is read

The flags of a regular expression, and the spacing that one of them allows between its parts.
-/

namespace Wiring.LogFilter.Expression

open Text (Rest Remainder afterChar?)

/-- How an expression is read, as its flags say. -/
structure Mode where
  anyCase : Bool := false
  unicode : Bool := true
  /-- Blanks between the parts do not count, and `#` begins a comment. -/
  spaced : Bool := false
deriving DecidableEq, Repr

/-! ## Flags -/

namespace Mode

/-- The mode with one flag set or cleared. -/
def set (m : Mode) (value : Bool) : Char → Mode
  | 'i' => { m with anyCase := value }
  | 'u' => { m with unicode := value }
  | 'x' => { m with spaced := value }
  | _ => m

/-- The mode that some flags make of `m`; those after a minus are cleared. No flag may be there
twice, and the minus is not the last. -/
def change? (m : Mode) (items : List Char) : Option Mode :=
  let isFlag (c : Char) : Bool := c ∈ ['i', 'm', 's', 'U', 'u', 'R', 'x', '-']
  if items.all isFlag && items.eraseDups.length == items.length && items.getLast? != some '-' then
    let after := items.dropWhile (· != '-')
    some <| after.foldl (·.set false ·) ((items.takeWhile (· != '-')).foldl (·.set true ·) m)
  else none

/-- Whether characters can be compared: what is the other case of a letter is known of ASCII
alone. -/
def comparesChars (m : Mode) : Bool := !(m.anyCase && m.unicode)

end Mode

/-! ## Spacing -/

/-- What is left after blanks, and after comments, which end with their line. -/
def skipSpacing (inComment : Bool) : (cs : List Char) → Remainder cs
  | [] => .all []
  | c :: rest =>
    if inComment || c == '#' || Text.isBlank c then
      (Rest.tail rest).toRemainder.andThen
        (skipSpacing ((inComment || c == '#') && c != '\n') rest)
    else .all (c :: rest)

namespace Mode

/-- What is left after the spacing at the start of `cs`. -/
def skip (m : Mode) (cs : List Char) : Remainder cs :=
  if m.spaced then skipSpacing false cs else .all cs

/-- What is left after the character `c` at the start of `cs` and the spacing behind it. -/
def skipChar? (m : Mode) (c : Char) (cs : List Char) : Option (Rest cs) :=
  (afterChar? c cs).map fun after => after.andThen (m.skip after.1)

end Mode

/-! ## Depth -/

/-- How deep some parts are together: a single part as deep as it is, several deeper by one than the
deepest. -/
def depthOfAll : List Nat → Nat
  | [] => 0
  | [depth] => depth
  | depths => depths.foldl max 0 + 1

end Wiring.LogFilter.Expression
