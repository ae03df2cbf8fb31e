import Wiring.Toml.Scalar
import Wiring.Toml.Statement
import Wiring.Toml.Tree

/-!
# Meaning

What words, keys and values stand for. The first fault in the order of the text is reported.
-/

namespace Wiring.Toml

/-! ## Keys -/

def isKeyChar (c : Char) : Bool := c.isAlphanum || c == '_' || c == '-'

/-- The part of a key that a word stands for. -/
def Word.part (w : Word) : Except Stop String :=
  match w.quotes with
  | some q => if q.isLong then .error ⟨.invalidKey, w.text⟩ else w.string q
  | none =>
    if w.content.isEmpty then .error ⟨.missingKey, w.text⟩
    else if w.content.all isKeyChar then .ok (String.ofList w.content)
    else .error ⟨.invalidKey, w.text⟩

/-- How many parts the path to the last part of a key may have. -/
def maxPathLength : Nat := 79

/-- The path and the last part of a key. -/
def Key.parts (k : Key) : Except Stop (List String × String) := do
  let path ← k.path.mapM Word.part
  let name ← k.name.part
  if path.length ≤ maxPathLength then return (path, name) else throw ⟨.keyTooLong, k.text⟩

/-! ## Values -/

/-- The value that a word stands for. -/
def Word.data (w : Word) : Except Stop Data :=
  match w.quotes with
  | some q => (w.string q).map .string
  | none =>
    match Scalar.read? w.content with
    | some data => .ok data
    | none => .error ⟨if w.content.isEmpty then .missingValue else .invalidValue, w.text⟩

mutual

def Value.data : Value → Except Stop Data
  | .word w => w.data
  | .array items => do return .array (← Value.dataOfAll items)
  | .table entries => do return (← Entries.addAll [] entries).data

def Value.dataOfAll : List Value → Except Stop (List Data)
  | [] => .ok []
  | item :: items => do return (← item.data) :: (← Value.dataOfAll items)

/-- Adds keys with their values to a table. -/
def Entries.addAll (entries : Entries) : List (Key × Value) → Except Stop Entries
  | [] => .ok entries
  | (key, value) :: rest => do
    let (path, name) ← key.parts
    let data ← value.data
    let entries ← (entries.insertDotted path name data).mapError (⟨·, key.text⟩)
    Entries.addAll entries rest

end

end Wiring.Toml
