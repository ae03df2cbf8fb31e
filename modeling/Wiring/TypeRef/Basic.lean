import Wiring.Text.Dotted

/-!
# Type references

A declaration refers to types by their Java-like text: `int`, `java.util.List<java.lang.Integer>`,
`? extends a.B`, `byte[]`. `TypeRef` is the structure of such a text, `TypeRef.text` its canonical
form. The canonical form also orders representations, so two different references must not share
one; this holds of every reference that a text can denote.
-/

namespace Wiring

/-- The eight primitive kinds. -/
inductive Primitive
  | boolean | byte | short | int | long | float | double | char
deriving DecidableEq, Repr, Inhabited

namespace Primitive

def all : List Primitive :=
  [boolean, byte, short, int, long, float, double, char]

def keyword : Primitive → String
  | boolean => "boolean"
  | byte => "byte"
  | short => "short"
  | int => "int"
  | long => "long"
  | float => "float"
  | double => "double"
  | char => "char"

/-- The class that holds a value of the primitive as an object. -/
def boxedName : Primitive → String
  | boolean => "java.lang.Boolean"
  | byte => "java.lang.Byte"
  | short => "java.lang.Short"
  | int => "java.lang.Integer"
  | long => "java.lang.Long"
  | float => "java.lang.Float"
  | double => "java.lang.Double"
  | char => "java.lang.Character"

def ofKeyword? (word : String) : Option Primitive :=
  all.find? (·.keyword == word)

end Primitive

/-- A reference to a type. -/
inductive TypeRef
  | void
  | primitive (kind : Primitive)
  /-- A class or interface, with its type arguments if it has any. -/
  | declared (name : String) (args : List TypeRef)
  /-- The wildcard `?`, which has no bound. -/
  | wildcard
  /-- The wildcard `? extends bound`. -/
  | wildcardExtends (bound : TypeRef)
  /-- The wildcard `? super bound`. -/
  | wildcardSuper (bound : TypeRef)
  | array (component : TypeRef)
deriving Repr, Inhabited

namespace TypeRef

/-! ## Equality -/

mutual

def decEq : (s t : TypeRef) → Decidable (s = t)
  | void, void => isTrue rfl
  | primitive k, primitive l =>
    if h : k = l then isTrue (h ▸ rfl) else isFalse fun e => h (by injection e)
  | declared m as, declared n bs =>
    if h : m = n then
      match decEqList as bs with
      | isTrue hs => isTrue (by rw [h, hs])
      | isFalse hs => isFalse fun e => hs (by injection e)
    else isFalse fun e => h (by injection e)
  | wildcard, wildcard => isTrue rfl
  | wildcardExtends a, wildcardExtends b =>
    match decEq a b with
    | isTrue h => isTrue (by rw [h])
    | isFalse h => isFalse fun e => h (by injection e)
  | wildcardSuper a, wildcardSuper b =>
    match decEq a b with
    | isTrue h => isTrue (by rw [h])
    | isFalse h => isFalse fun e => h (by injection e)
  | array a, array b =>
    match decEq a b with
    | isTrue h => isTrue (by rw [h])
    | isFalse h => isFalse fun e => h (by injection e)
  | void, primitive _ | void, declared .. | void, wildcard | void, wildcardExtends _
  | void, wildcardSuper _ | void, array _ => isFalse nofun
  | primitive _, void | primitive _, declared .. | primitive _, wildcard
  | primitive _, wildcardExtends _ | primitive _, wildcardSuper _ | primitive _, array _ =>
    isFalse nofun
  | declared .., void | declared .., primitive _ | declared .., wildcard
  | declared .., wildcardExtends _ | declared .., wildcardSuper _ | declared .., array _ =>
    isFalse nofun
  | wildcard, void | wildcard, primitive _ | wildcard, declared ..
  | wildcard, wildcardExtends _ | wildcard, wildcardSuper _ | wildcard, array _ => isFalse nofun
  | wildcardExtends _, void | wildcardExtends _, primitive _ | wildcardExtends _, declared ..
  | wildcardExtends _, wildcard | wildcardExtends _, wildcardSuper _
  | wildcardExtends _, array _ => isFalse nofun
  | wildcardSuper _, void | wildcardSuper _, primitive _ | wildcardSuper _, declared ..
  | wildcardSuper _, wildcard | wildcardSuper _, wildcardExtends _
  | wildcardSuper _, array _ => isFalse nofun
  | array _, void | array _, primitive _ | array _, declared .. | array _, wildcard
  | array _, wildcardExtends _ | array _, wildcardSuper _ => isFalse nofun

def decEqList : (ss ts : List TypeRef) → Decidable (ss = ts)
  | [], [] => isTrue rfl
  | [], _ :: _ => isFalse nofun
  | _ :: _, [] => isFalse nofun
  | s :: ss, t :: ts =>
    match decEq s t, decEqList ss ts with
    | isTrue h, isTrue hs => isTrue (by rw [h, hs])
    | isFalse h, _ => isFalse fun e => h (by injection e)
    | _, isFalse hs => isFalse fun e => hs (by injection e)

end

instance : DecidableEq TypeRef := decEq

/-! ## Names of types with a meaning of their own -/

/-- The type of every single looked-up value. -/
def stringName : String := "java.lang.String"

/-- The list type that is converted element by element. -/
def listName : String := "java.util.List"

/-- The wrapper of a value that may be absent. -/
def optionalName : String := "java.util.Optional"

/-- The wrappers of a value that is asked for on demand. -/
def providerNames : List String := ["javax.inject.Provider", "jakarta.inject.Provider"]

/-- The wrappers of a value that is computed once, when first asked for. -/
def lazyNames : List String := ["dagger.Lazy"]

/-- `java.lang.String`. -/
def string : TypeRef := declared stringName []

/-- `java.util.List<element>`. -/
def listOf (element : TypeRef) : TypeRef := declared listName [element]

/-! ## Canonical text -/

mutual

/-- The canonical text: type arguments are separated by a comma and one space. -/
def text : TypeRef → String
  | void => "void"
  | primitive kind => kind.keyword
  | declared name [] => name
  | declared name (arg :: args) => name ++ "<" ++ arg.text ++ textTail args ++ ">"
  | wildcard => "?"
  | wildcardExtends bound => "? extends " ++ bound.text
  | wildcardSuper bound => "? super " ++ bound.text
  | array component => component.text ++ "[]"

/-- The arguments after the first, each behind its separator. -/
def textTail : List TypeRef → String
  | [] => ""
  | arg :: args => ", " ++ arg.text ++ textTail args

end

instance : ToString TypeRef := ⟨text⟩

/-! ## Parts and properties -/

def isVoid (t : TypeRef) : Bool := t == void

def isPrimitive : TypeRef → Bool
  | primitive _ => true
  | _ => false

/-- Whether the reference is exactly `java.lang.String`. -/
def isString (t : TypeRef) : Bool := t == string

def isWildcard : TypeRef → Bool
  | wildcard | wildcardExtends _ | wildcardSuper _ => true
  | _ => false

/-- The name of a class or interface, without its type arguments. -/
def erasure? : TypeRef → Option String
  | declared name _ => some name
  | _ => none

/-- The type arguments; none for anything but a class or interface. -/
def args : TypeRef → List TypeRef
  | declared _ args => args
  | _ => []

/-- Whether the reference is to the class `name`, whatever its type arguments. -/
def isNamed (t : TypeRef) (name : String) : Bool := t.erasure? == some name

/-- The type argument of a reference to one of the classes `names`, if it has exactly one. -/
def singleArgOf? (t : TypeRef) (names : List String) : Option TypeRef :=
  match t with
  | declared name [arg] => if name ∈ names then some arg else none
  | _ => none

/-- The name without its package: `List` for `java.util.List<a.B>`. -/
def simpleName : TypeRef → String
  | void => "void"
  | primitive kind => kind.keyword
  | declared name _ => Text.simpleName name
  | wildcard | wildcardExtends _ | wildcardSuper _ => "?"
  | array component => component.simpleName ++ "[]"

end TypeRef

end Wiring
