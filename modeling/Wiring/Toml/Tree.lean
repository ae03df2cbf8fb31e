import Wiring.Data.Basic
import Wiring.Order.Ascending
import Wiring.Toml.Fault

/-!
# Tables under construction

A document mentions one table in several places, and how a table came about says where it may be
mentioned again: a table that only the path of a header or of a key implies may still be extended by
the same means, a table that a header or braces define is complete.
-/

namespace Wiring.Toml

/-- How a table came about. -/
inductive Origin
  /-- It has a header of its own, or is the root. -/
  | header
  /-- It lies on the path of a header. -/
  | headerPath
  /-- It lies on the path of a key. -/
  | keyPath
deriving DecidableEq, Repr

/-- A value, or a table that may still grow. -/
inductive Node
  | value (data : Data)
  | table (origin : Origin) (entries : List (String × Node))
  /-- The tables that headers in double brackets append. -/
  | tables (items : List (List (String × Node)))
deriving Inhabited

abbrev Entries := List (String × Node)

namespace Entries

/-- The entries with `node` at `key`, in place of what was there. -/
def set (key : String) (node : Node) : Entries → Entries
  | [] => [(key, node)]
  | (k, n) :: rest => if k = key then (k, node) :: rest else (k, n) :: set key node rest

/-- Adds a value at a new key. -/
def insertNew (key : String) (data : Data) (entries : Entries) : Except Fault Entries :=
  match entries.lookup key with
  | none => .ok (entries.set key (.value data))
  | some _ => .error (.duplicateKey key)

/-- Changes the last of some tables. -/
def changeLast {ε : Type} (change : Entries → Except ε Entries) :
    List Entries → Except ε (List Entries)
  | [] => .ok []
  | [last] => do return [← change last]
  | item :: items => do return item :: (← changeLast change items)

/-- Adds a value at the end of a path. The table that the path leads to must have come about by the
paths of keys, as `origin` says of this one. -/
def insertAt (origin : Origin) (path : List String) (key : String) (data : Data)
    (entries : Entries) : Except Fault Entries :=
  match path with
  | [] => if origin = .keyPath then entries.insertNew key data else .error (.duplicateKey key)
  | k :: path =>
    match entries.lookup k with
    | none => do
      return entries.set k (.table .keyPath (← insertAt .keyPath path key data []))
    | some (.table .header _) => .error (.duplicateKey k)
    | some (.table o inner) => do
      return entries.set k (.table o (← insertAt o path key data inner))
    | some (.tables items) => do
      return entries.set k (.tables (← changeLast (insertAt .header path key data) items))
    | some (.value _) => .error (.notOpen k)

/-- Adds the value of a key, which may be dotted, to a table. -/
def insertDotted (path : List String) (key : String) (data : Data) (entries : Entries) :
    Except Fault Entries :=
  match path with
  | [] => entries.insertNew key data
  | path => insertAt .header path key data entries

variable {ε : Type} (fault : Fault → ε)

/-- Changes the table at the end of the path of a header. -/
def changeAt (path : List String) (change : Entries → Except ε Entries) (entries : Entries) :
    Except ε Entries :=
  match path with
  | [] => change entries
  | k :: path =>
    match entries.lookup k with
    | none => do return entries.set k (.table .headerPath (← changeAt path change []))
    | some (.table o inner) => do return entries.set k (.table o (← changeAt path change inner))
    | some (.tables items) => do
      return entries.set k (.tables (← changeLast (changeAt path change) items))
    | some (.value _) => .error (fault (.notOpen k))

/-- Defines the table `key` with the entries that `fill` adds. -/
def define (key : String) (fill : Entries → Except ε Entries) (entries : Entries) :
    Except ε Entries :=
  match entries.lookup key with
  | none => do return entries.set key (.table .header (← fill []))
  | some (.table .headerPath inner) => do
    return entries.set key (.table .header (← fill inner))
  | some _ => .error (fault (.duplicateKey key))

/-- Appends a table to the tables `key`. -/
def append (key : String) (item : Entries) (entries : Entries) : Except ε Entries :=
  match entries.lookup key with
  | none => .ok (entries.set key (.tables [item]))
  | some (.tables items) => .ok (entries.set key (.tables (items ++ [item])))
  | some _ => .error (fault (.duplicateKey key))

end Entries

/-- Entries compare by key. -/
def compareKey (a b : String × Data) : Ordering := compare a.1 b.1

mutual

def Node.data : Node → Data
  | .value data => data
  | .table _ entries => .table (Ascending.ofList compareKey (entriesData entries))
  | .tables items => .array (itemsData items)

/-- The values of some entries. -/
def entriesData : List (String × Node) → List (String × Data)
  | [] => []
  | (key, node) :: rest => (key, node.data) :: entriesData rest

def itemsData : List (List (String × Node)) → List Data
  | [] => []
  | entries :: rest => .table (Ascending.ofList compareKey (entriesData entries)) :: itemsData rest

end

/-- The entries of a finished table, in the order of their keys. -/
def Entries.data (entries : Entries) : Data := (Node.table .header entries).data

end Wiring.Toml
