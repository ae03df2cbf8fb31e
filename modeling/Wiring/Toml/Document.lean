import Wiring.Toml.Meaning

/-!
# Documents

The table that a TOML document denotes. The entries after a header belong to the table that it
defines or appends, those before the first header to the root.
-/

namespace Wiring.Toml

/-- A text that is no document: what is wrong, and the line in which it was found. -/
structure SyntaxError where
  fault : Fault
  line : Nat
deriving DecidableEq, Repr

/-- Of a key that is too long no more is said than that there is a limit. -/
def SyntaxError.message (e : SyntaxError) : String :=
  if e.fault = .keyTooLong then e.fault.message ++ "\n"
  else "TOML parse error at line " ++ toString e.line ++ ": " ++ e.fault.message

/-- A header and the entries below it. -/
structure Section where
  header : Option Statement
  entries : List (Key × Value)

/-- The entries before the first header, and the sections after it. -/
def sections : List Statement → Section × List Section
  | [] => (⟨none, []⟩, [])
  | s :: rest =>
    let (first, others) := sections rest
    match s with
    | .entry key value => ({ first with entries := (key, value) :: first.entries }, others)
    | .header _ | .appendHeader _ => (⟨none, []⟩, { first with header := some s } :: others)

/-- Adds a section to the root table. -/
def Section.addTo (s : Section) (root : Entries) : Except Stop Entries :=
  match s.header with
  | some (.header key) => do
    let (path, name) ← key.parts
    let fault := (⟨·, key.text⟩)
    root.changeAt fault path (Entries.define fault name (Entries.addAll · s.entries))
  | some (.appendHeader key) => do
    let (path, name) ← key.parts
    let fault := (⟨·, key.text⟩)
    let item ← Entries.addAll [] s.entries
    root.changeAt fault path (Entries.append fault name item)
  | _ => Entries.addAll root s.entries

/-- The root table of the statements of a document. -/
def assemble (statements : List Statement) : Except Stop Entries :=
  let (first, others) := sections statements
  (first :: others).foldlM (fun root s => s.addTo root) []

/-- The characters of a text without a byte order mark. -/
def withoutMark (text : String) : List Char :=
  match text.toList with
  | '\ufeff' :: rest => rest
  | cs => cs

/-- The number of the line in which the end part `rest` of `document` begins. -/
def lineOf (document rest : List Char) : Nat :=
  (document.take (document.length - rest.length)).count '\n' + 1

/-- The table that a document denotes. -/
def read (text : String) : Except SyntaxError Data :=
  let document := withoutMark text
  let result := do return (← assemble (← readStatements document)).data
  result.mapError fun stop => ⟨stop.fault, lineOf document stop.rest⟩

end Wiring.Toml
