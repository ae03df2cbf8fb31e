/-!
# Data

The values that documents and reports hold. Numbers have no meaning here and are kept as they are
written.
-/

namespace Wiring

inductive Data
  | null
  | boolean (value : Bool)
  | string (value : String)
  /-- A number. -/
  | scalar (text : String)
  | array (items : List Data)
  /-- Values by key, each key once. -/
  | table (entries : List (String × Data))
deriving Inhabited, Repr

namespace Data

def ofOption {α : Type} (f : α → Data) : Option α → Data
  | none => null
  | some a => f a

def ofList {α : Type} (f : α → Data) (as : List α) : Data := array (as.map f)

def ofNat (n : Nat) : Data := scalar (toString n)

end Data

end Wiring
