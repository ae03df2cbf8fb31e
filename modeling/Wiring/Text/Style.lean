/-!
Styled terminal text: the text between the escape sequence of a style and the reset sequence.
-/

namespace Wiring.Text

inductive Colour
  | red | green | yellow | cyan
deriving DecidableEq, Repr

def Colour.code : Colour → String
  | red => "31"
  | green => "32"
  | yellow => "33"
  | cyan => "36"

inductive Weight
  | bold | dimmed
deriving DecidableEq, Repr

def Weight.code : Weight → String
  | bold => "1"
  | dimmed => "2"

/-- A weight and a colour, each of which may be left as it is. -/
structure Style where
  weight : Option Weight := none
  colour : Option Colour := none
deriving DecidableEq, Repr

namespace Style

def bold : Style := { weight := some .bold }
def dimmed : Style := { weight := some .dimmed }
def red : Style := { colour := some .red }
def green : Style := { colour := some .green }
def yellow : Style := { colour := some .yellow }
def cyan : Style := { colour := some .cyan }

/-- The same colour in bold. -/
def strong (s : Style) : Style := { s with weight := some .bold }

/-- The escape sequence that turns the style on; the weight comes before the colour. -/
def on (s : Style) : String :=
  let codes := (s.weight.map Weight.code).toList ++ (s.colour.map Colour.code).toList
  "\x1b[" ++ ";".intercalate codes ++ "m"

/-- The escape sequence that turns every style off. -/
def reset : String := "\x1b[0m"

/-- Repeats `again` after each reset inside a text, so that the rest of it keeps its style. -/
def resume (again : List Char) : List Char → List Char
  | '\x1b' :: '[' :: '0' :: 'm' :: cs => '\x1b' :: '[' :: '0' :: 'm' :: again ++ resume again cs
  | [] => []
  | c :: cs => c :: resume again cs

/-- Whether a terminal report uses styles. -/
abbrev Enabled := Bool

/-- The text in this style, or as it is where styles are not used. -/
def paint (s : Style) (enabled : Enabled) (text : String) : String :=
  if enabled then s.on ++ String.ofList (resume s.on.toList text.toList) ++ reset else text

end Style

end Wiring.Text
