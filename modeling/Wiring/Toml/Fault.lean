import Wiring.Text.Rest

/-!
What can be wrong with the text of a TOML document, and where.
-/

namespace Wiring.Toml

inductive Fault
  | invalidCharacter
  | invalidEscape
  | unclosedString
  | missingKey
  | invalidKey
  | keyTooLong
  | missingEquals
  | missingValue
  | invalidValue
  | unclosedArray
  | unclosedTable
  | unclosedHeader
  | trailingText
  | tooDeep
  | duplicateKey (key : String)
  /-- A key path leads through something that is no table, or a table that is closed. -/
  | notOpen (key : String)
deriving DecidableEq, Repr

def Fault.message : Fault → String
  | invalidCharacter => "invalid character"
  | invalidEscape => "invalid escape sequence"
  | unclosedString => "string without an end"
  | missingKey => "expected a key"
  | invalidKey => "invalid key"
  | keyTooLong => "recursion limit"
  | missingEquals => "expected '='"
  | missingValue => "expected a value"
  | invalidValue => "invalid value"
  | unclosedArray => "expected ',' or ']'"
  | unclosedTable => "expected ',' or '\x7d'"
  | unclosedHeader => "header without an end"
  | trailingText => "expected the end of the line"
  | tooDeep => "arrays and tables are nested too deeply"
  | duplicateKey key => "duplicate key '" ++ key ++ "'"
  | notOpen key => "key '" ++ key ++ "' does not lead to a table that can be extended"

/-- A fault and the characters that were unread when it was found. -/
structure Stop where
  fault : Fault
  rest : List Char
deriving DecidableEq, Repr

end Wiring.Toml
