import Wiring.Data.Basic

/-!
# Data as JSON text

The indented form: one item or entry to a line, two more blanks before it at each level, and empty
arrays and tables closed on the spot.
-/

namespace Wiring.Data

/-- A hexadecimal digit. -/
def hexDigit (n : Nat) : Char := "0123456789abcdef".toList.getD n '0'

/-- A character inside quotes. -/
def quotedChar (c : Char) : List Char :=
  if c = '"' then ['\\', '"']
  else if c = '\\' then ['\\', '\\']
  else if c = '\n' then ['\\', 'n']
  else if c = '\r' then ['\\', 'r']
  else if c = '\t' then ['\\', 't']
  else if c.toNat = 8 then ['\\', 'b']
  else if c.toNat = 12 then ['\\', 'f']
  else if c.toNat < 32 then
    ['\\', 'u', '0', '0', hexDigit (c.toNat / 16), hexDigit (c.toNat % 16)]
  else [c]

def quoted (text : String) : String :=
  String.ofList ('"' :: text.toList.flatMap quotedChar ++ ['"'])

mutual

/-- The text of data whose first line stands after `margin`. -/
def jsonAt (margin : String) : Data → String
  | null => "null"
  | boolean value => if value then "true" else "false"
  | string value => quoted value
  | scalar text => text
  | array [] => "[]"
  | array (item :: items) =>
    let inner := margin ++ "  "
    "[\n" ++ inner ++ jsonAt inner item ++ jsonItems inner items ++ "\n" ++ margin ++ "]"
  | table [] => "\x7b\x7d"
  | table ((key, value) :: entries) =>
    let inner := margin ++ "  "
    "\x7b\n" ++ inner ++ quoted key ++ ": " ++ jsonAt inner value ++ jsonEntries inner entries ++
    "\n" ++ margin ++ "\x7d"

/-- The items after the first, each behind its comma and line end. -/
def jsonItems (margin : String) : List Data → String
  | [] => ""
  | item :: items => ",\n" ++ margin ++ jsonAt margin item ++ jsonItems margin items

def jsonEntries (margin : String) : List (String × Data) → String
  | [] => ""
  | (key, value) :: entries =>
    ",\n" ++ margin ++ quoted key ++ ": " ++ jsonAt margin value ++ jsonEntries margin entries

end

def json (data : Data) : String := jsonAt "" data

end Wiring.Data
