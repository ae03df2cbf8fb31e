import Wiring.Data.Decoder
import Wiring.Toml.Document

/-!
Documents: the text of a file as a value of the type that is wanted of it.
-/

namespace Wiring

/-- Why a text is not a document of the wanted type. -/
inductive DocumentError
  | malformed (e : Toml.SyntaxError)
  | unexpected (e : DataError)
deriving DecidableEq, Repr

def DocumentError.message : DocumentError → String
  | malformed e => e.message
  | unexpected e => "TOML parse error: " ++ e.message

/-- Reads a document. -/
def Decoder.readDocument {α : Type} (decoder : Decoder α) (text : String) :
    Except DocumentError α := do
  let data ← (Toml.read text).mapError .malformed
  (decoder .toml data).mapError .unexpected

end Wiring
