import Wiring.Files.Basic
import Wiring.Model.Builtin
import Wiring.Model.Document

/-!
# Loading models

A model is read from one document, or from all the documents below a directory. A document may
declare a builtin type anew, but no type may be declared twice.
-/

namespace Wiring

/-- Whether a file name ends in `.toml` and has something before that. -/
def isDocumentName (name : String) : Bool :=
  name.endsWith ".toml" && name != ".toml"

/-- The model documents at a path, each with its own path. -/
def Files.modelDocuments (files : Files) (path : String) :
    Except Failure (List (String × ByteArray)) :=
  match files path with
  | .file content => .ok [(path, content)]
  | .directory below =>
    .ok <| (below.filter fun f => f.path.getLast?.any isDocumentName).map fun f =>
      (joinPath path f.path, f.content)
  | .missing | .unreachable _ =>
    .error <| Failure.within ⟨[], .notFound ("model path does not exist: " ++ path)⟩
      ("Failed to load model from " ++ path)

/-- The declarations that were read so far, each with the path of its document. -/
abbrev DeclaredIn := List (TypeDecl × String)

/-- Adds the declarations of a document to those before. -/
def addDeclarations (file : String) : List TypeDecl → DeclaredIn → Except Error DeclaredIn
  | [], declared => .ok declared
  | d :: ds, declared =>
    match declared.find? (·.1.name == d.name) with
    | some (_, previous) =>
      .error (.modelParse file ("type '" ++ d.name ++ "' is already declared in " ++ previous))
    | none => addDeclarations file ds (declared ++ [(d, file)])

/-- Reads one document after others. -/
def readModelDocument (declared : DeclaredIn) (document : String × ByteArray) :
    Except Failure DeclaredIn := do
  let (file, content) := document
  let text ← (decodeText content).mapError fun cause =>
    Failure.within ⟨[], cause⟩ ("Failed to read model file: " ++ file)
  (readTypes text file >>= (addDeclarations file · declared)).mapError Failure.ofError

/-- The model at a path, with the builtin types. -/
def Model.load (files : Files) (path : String) : Except Failure Model := do
  let documents ← files.modelDocuments path
  let declared ← documents.foldlM readModelDocument []
  return Model.builtin.insertAll (declared.map (·.1))

end Wiring
