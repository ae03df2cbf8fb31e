import Wiring.Model.Basic

/-!
# Conversions

How a looked-up value becomes a value of the requested type. A chain of strategies is asked in turn
and the first answer counts. A strategy may ask the whole chain again about a smaller target type,
as the list strategy does about the type of the elements, so asking ends.
-/

namespace Wiring

inductive Conversion
  /-- The value is used as it is. -/
  | identity
  | parsePrimitive (kind : Primitive)
  /-- The static method `valueOf` of the target. -/
  | valueOf (target : TypeRef)
  /-- The static method `fromString` of the target. -/
  | fromString (target : TypeRef)
  /-- A constructor of the target. -/
  | construct (target : TypeRef)
  /-- Each element of a list is converted. -/
  | eachElement (elementType : TypeRef) (element : Conversion)
deriving DecidableEq, Repr, Inhabited

/-- The name of the strategy that makes such conversions. -/
def Conversion.strategy : Conversion → String
  | identity => "identity"
  | parsePrimitive _ => "primitive"
  | valueOf _ => "valueOf"
  | fromString _ => "fromString"
  | construct _ => "constructor"
  | eachElement .. => "list"

namespace Conversion

/-- How to convert to a type that is smaller than `target`. -/
abbrev Smaller (target : TypeRef) :=
  (t : TypeRef) → sizeOf t < sizeOf target → (source : TypeRef) → Option Conversion

/-- One link of a chain. -/
structure Strategy where
  name : String
  /-- The conversion to `target` from `source`, if the strategy has one. -/
  convert : Model → (target source : TypeRef) → Smaller target → Option Conversion

abbrev Chain := List Strategy

/-- The first conversion that a strategy of the chain has. -/
def Chain.resolve (chain : Chain) (m : Model) (target source : TypeRef) : Option Conversion :=
  chain.findSome? fun s =>
    s.convert m target source fun t _ source => Chain.resolve chain m t source
termination_by sizeOf target

/-- The names of the strategies, in the order in which they are asked. -/
def Chain.names (chain : Chain) : List String := chain.map (·.name)

namespace Strategy

/-- A type is converted to itself by doing nothing. -/
def identity : Strategy where
  name := "identity"
  convert _ target source _ := if target = source then some .identity else none

/-- A string is parsed as a primitive, and as the class that boxes a character, which has no
`valueOf`. -/
def primitive : Strategy where
  name := "primitive"
  convert _ target source _ :=
    if source.isString then
      match target with
      | .primitive kind => some (.parsePrimitive kind)
      | _ => if target.isNamed Primitive.char.boxedName then some (.parsePrimitive .char) else none
    else none

/-- The declaration of a target that a string may be converted to by one of its own members: a
declared class without type arguments. -/
def scalarTarget? (m : Model) (target source : TypeRef) : Option TypeDecl :=
  if source.isString && target.args.isEmpty then m.resolve? target else none

/-- A string is given to a static method of the target. -/
def factory (name : String) (conversion : TypeRef → Conversion) : Strategy where
  name
  convert m target source _ := do
    let d ← scalarTarget? m target source
    if d.hasStringFactory name then some (conversion target) else none

def valueOf : Strategy := factory "valueOf" .valueOf

def fromString : Strategy := factory "fromString" .fromString

/-- A string is given to a constructor of the target. -/
def constructor : Strategy where
  name := "constructor"
  convert m target source _ := do
    let d ← scalarTarget? m target source
    if d.hasStringConstructor then some (.construct target) else none

theorem sizeOf_lt_sizeOf_declared (name : String) (arg : TypeRef) :
    sizeOf arg < sizeOf (TypeRef.declared name [arg]) := by
  simp only [TypeRef.declared.sizeOf_spec, List.cons.sizeOf_spec]; omega

/-- The type of the elements of a list, with the fact that it is smaller than the list type. -/
def elementOf? : (t : TypeRef) → Option { e : TypeRef // sizeOf e < sizeOf t }
  | .declared name [element] =>
    if name = TypeRef.listName then some ⟨element, sizeOf_lt_sizeOf_declared name element⟩
    else none
  | _ => none

/-- A list is converted element by element. A list of wildcards or primitives is not, nor is one
without a type argument. -/
def list : Strategy where
  name := "list"
  convert _ target source smaller := do
    let ⟨element, h⟩ ← elementOf? target
    let ⟨sourceElement, _⟩ ← elementOf? source
    if element.isWildcard || element.isPrimitive then none
    else (smaller element h sourceElement).map (.eachElement element)

end Strategy

/-- The strategies that are asked by default. -/
def Chain.standard : Chain :=
  [.identity, .primitive, .valueOf, .fromString, .constructor, .list]

/-- The chain with one more strategy, which is asked last. -/
def Chain.append (chain : Chain) (s : Strategy) : Chain := chain ++ [s]

end Conversion

end Wiring
