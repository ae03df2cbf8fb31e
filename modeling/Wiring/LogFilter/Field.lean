import Wiring.LogFilter.Expression
import Wiring.LogFilter.Level
import Wiring.Number.Double

/-!
# Fields of log messages

A filter may want messages that have a field, or a field with a certain value. The text of the value
says what it is compared with: a truth value or a number if it can be read as one, and otherwise the
values that match it as a regular expression.
-/

namespace Wiring.LogFilter

/-- What the value of a field is compared with. -/
inductive FieldValue
  | boolean (value : Bool)
  | double (value : Double)
  | noNumber
  | natural (value : Nat)
  | integer (value : Int)
  | expression (text : String)
deriving DecidableEq, Repr

namespace FieldValue

/-- The integer that a text writes if 64 bits can hold it. -/
def integer? (text : String) : Option FieldValue :=
  match text.toList with
  | '-' :: digits =>
    ((Text.natural? digits).filter (· ≤ 0x8000000000000000)).map fun n => integer (-(n : Int))
  | _ => ((LogLevel.number? text).filter (· ≤ 0xffffffffffffffff)).map natural

def ofText? (text : String) : Option FieldValue :=
  if text == "true" then some (boolean true)
  else if text == "false" then some (boolean false)
  else match integer? text, Double.read? text with
    | some n, _ => some n
    | none, some (some d) => some (double d)
    | none, some none => some noNumber
    | none, none => if Expression.isSound text then some (expression text) else none

def text : FieldValue → String
  | boolean value => if value then "true" else "false"
  | double value => value.text
  | noNumber => "NaN"
  | natural value => toString value
  | integer value => toString value
  | expression text => text

/-- The place of a kind of value among the kinds. -/
def rank : FieldValue → Nat
  | boolean _ => 0
  | double _ => 1
  | noNumber => 2
  | natural _ => 3
  | integer _ => 4
  | expression _ => 5

/-- Values compare by kind, then within their kind. -/
def compare : FieldValue → FieldValue → Ordering
  | boolean a, boolean b => Ord.compare a b
  | double a, double b => a.compare b
  | natural a, natural b => Ord.compare a b
  | integer a, integer b => Ord.compare a b
  | expression a, expression b => Ord.compare a b
  | a, b => Ord.compare a.rank b.rank

end FieldValue

/-- A field that messages must have, with the value that it must have if there is one. -/
structure FieldMatch where
  name : String
  value : Option FieldValue
deriving DecidableEq, Repr

namespace FieldMatch

/-- Reads a name, or a name and a value with an equals sign between them. What follows a second
equals sign does not count. -/
def ofText? (text : String) : Option FieldMatch :=
  match text.splitOn "=" with
  | name :: value :: _ => (FieldValue.ofText? value).map fun v => ⟨name, some v⟩
  | _ => if text.isEmpty then none else some ⟨text, none⟩

def text (m : FieldMatch) : String :=
  m.name ++
  match m.value with
  | some value => "=" ++ value.text
  | none => ""

/-- Fields with a value come after fields without one; then names count, then values. -/
def compare (a b : FieldMatch) : Ordering :=
  (Ord.compare a.value.isSome b.value.isSome).then <|
    (Ord.compare a.name b.name).then <|
      match a.value, b.value with
      | some v, some w => v.compare w
      | _, _ => .eq

end FieldMatch

end Wiring.LogFilter
