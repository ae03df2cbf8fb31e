import Wiring.Data.Basic
import Wiring.TypeRef.Parser

/-!
# Reading values from data

A decoder reads a value of one type from data. A record is written as a table with a key for each
field, in any order, or as an array of its fields in their own order. Of several errors in one table
the one at the first key counts, in the order of the entries; a key that is not there is an error
only if all that are there are sound. The form that the data was written in decides what may be left
over where nothing more is wanted.
-/

namespace Wiring

/-- Why data does not hold what is wanted. -/
inductive DataError
  | unknownKey (key : String)
  | missingKey (key : String)
  | unexpected (wanted : String)
  | typeRef (e : TypeRef.ParseError)
deriving DecidableEq, Repr

def DataError.message : DataError → String
  | unknownKey key => "unknown key '" ++ key ++ "'"
  | missingKey key => "missing key '" ++ key ++ "'"
  | unexpected wanted => "expected " ++ wanted
  | typeRef e => "Invalid type reference '" ++ e.input ++ "': " ++ e.reason

/-- The form that data was written in. -/
inductive DataFormat
  | json
  | toml
deriving DecidableEq, Repr

namespace DataFormat

/-- Whether an array may go on after the last field of the record that it holds. -/
def allowsMoreItems : DataFormat → Bool
  | json => false
  | toml => true

/-- Whether data says nothing. A form that has a value for that has no other. -/
def isVacant : DataFormat → Data → Bool
  | json, .null => true
  | toml, .array [] | toml, .table [] => true
  | _, _ => false

end DataFormat

abbrev Decoder (α : Type) := DataFormat → Data → Except DataError α

namespace Decoder

def string : Decoder String
  | _, .string value => .ok value
  | _, _ => .error (.unexpected "a string")

def boolean : Decoder Bool
  | _, .boolean value => .ok value
  | _, _ => .error (.unexpected "a boolean")

def typeRef : Decoder TypeRef
  | _, .string text => (TypeRef.parse text).mapError .typeRef
  | _, _ => .error (.unexpected "a type reference")

def optional {α : Type} (item : Decoder α) : Decoder (Option α)
  | _, .null => .ok none
  | format, data => some <$> item format data

def list {α : Type} (item : Decoder α) : Decoder (List α)
  | format, .array items => items.mapM (item format)
  | _, _ => .error (.unexpected "an array")

/-- The values of a table by key. -/
def tableOf {α : Type} (item : Decoder α) : Decoder (List (String × α))
  | format, .table entries => entries.mapM fun (key, data) => (key, ·) <$> item format data
  | _, _ => .error (.unexpected "a table")

/-- One of some values, by its word or by a table whose only key is the word. -/
def oneOf {α : Type} (values : List α) (word : α → String) : Decoder α
  | _, .string text => ofWord text
  | format, .table [(key, data)] => do
    let value ← ofWord key
    if format.isVacant data then return value else throw (.unexpected "an empty value")
  | _, _ => .error (.unexpected "a word")
where
  ofWord (text : String) : Except DataError α :=
    match values.find? (word · == text) with
    | some value => .ok value
    | none => .error (.unexpected ("one of " ++ ", ".intercalate (values.map word)))

end Decoder

/-- A field of a record of type `ρ`: its key, and how its value changes the record. -/
structure RecordField (ρ : Type) where
  key : String
  required : Bool
  read : DataFormat → Data → ρ → Except DataError ρ

namespace RecordField

variable {ρ α : Type}

def needed (key : String) (item : Decoder α) (set : ρ → α → ρ) : RecordField ρ :=
  ⟨key, true, fun format data r => set r <$> item format data⟩

/-- A field that keeps its first value where the data does not have it. -/
def defaulted (key : String) (item : Decoder α) (set : ρ → α → ρ) : RecordField ρ :=
  ⟨key, false, fun format data r => set r <$> item format data⟩

end RecordField

namespace Decoder

variable {ρ : Type}

/-- Reads the entries of a table into a record. -/
def readEntries (fields : List (RecordField ρ)) (start : ρ) (format : DataFormat)
    (entries : List (String × Data)) : Except DataError ρ :=
  entries.foldlM (fun r (key, data) =>
    match fields.find? (·.key == key) with
    | some field => field.read format data r
    | none => .error (.unknownKey key)) start

/-- Reads the items of an array into a record. -/
def readItems (format : DataFormat) : List (RecordField ρ) → List Data → ρ → Except DataError ρ
  | [], items, r =>
    if items.isEmpty || format.allowsMoreItems then .ok r
    else .error (.unexpected "the end of the array")
  | field :: fields, [], r =>
    if field.required then .error (.missingKey field.key) else readItems format fields [] r
  | field :: fields, data :: items, r => do
    readItems format fields items (← field.read format data r)

/-- A record with these fields, which has the values of `start` where the data has none. -/
def record (fields : List (RecordField ρ)) (start : ρ) : Decoder ρ
  | format, .table entries => do
    let r ← readEntries fields start format entries
    match fields.find? fun f => f.required && !entries.any (·.1 == f.key) with
    | some field => throw (.missingKey field.key)
    | none => return r
  | format, .array items => readItems format fields items start
  | _, _ => .error (.unexpected "a table")

end Decoder

end Wiring
