import Wiring.Data.Declaration
import Wiring.Data.Document
import Wiring.Error.Basic

/-!
Model documents: TOML documents whose only key is `types`, a list of declarations.
-/

namespace Wiring

def TypeDecl.listDecoder : Decoder (List TypeDecl) :=
  .record [.defaulted "types" (.list TypeDecl.decoder) fun _ types => types] []

/-- The declarations of a model document, which errors refer to as `file`. -/
def readTypes (text file : String) : Except Error (List TypeDecl) :=
  (TypeDecl.listDecoder.readDocument text).mapError fun e => .modelParse file e.message

end Wiring
