import Wiring.TypeRef.Basic

/-!
# Declarations

What a model declares: types with their members, and the annotations on members and parameters. A
qualifier annotation carries the name of a configuration value and, if it has one, its default; an
annotation holds nothing else that matters here.
-/

namespace Wiring

/-- The role of a declared type. -/
inductive Kind
  /-- Includes modules and has provision methods; the root of a walk. -/
  | component
  /-- Includes modules and has provides methods. -/
  | «module»
  /-- Has a static `valueOf` for its names. -/
  | enum
  /-- Any other class or interface. -/
  | «class»
deriving DecidableEq, Repr, Inhabited

def Kind.name : Kind → String
  | .component => "component"
  | .module => "module"
  | .enum => "enum"
  | .class => "class"

instance : ToString Kind := ⟨Kind.name⟩

inductive Visibility
  | «public» | «protected» | package | «private»
deriving DecidableEq, Repr, Inhabited

def Visibility.name : Visibility → String
  | .public => "public"
  | .protected => "protected"
  | .package => "package"
  | .private => "private"

structure Annotation where
  /-- The annotation type, with or without its package. -/
  type : String
  qualifier : Bool := false
  name : Option String := none
  default : Option String := none
deriving DecidableEq, Repr, Inhabited

namespace Annotation

/-- An annotation without values. -/
def marker (type : String) : Annotation := { type }

/-- A qualifier with a name and perhaps a default. -/
def named (type name : String) (default : Option String) : Annotation :=
  { type, qualifier := true, name := some name, default }

def simpleName (a : Annotation) : String := Text.simpleName a.type

/-- Whether the annotation type is `typeName`, written with or without a package. -/
def isType (a : Annotation) (typeName : String) : Bool :=
  a.type == typeName || a.simpleName == typeName

/-- Whether this is `Nullable` of any package. -/
def isNullable (a : Annotation) : Bool := a.simpleName == "Nullable"

/-- The annotation as it is written in a source; a default without a name is left out. -/
def text (a : Annotation) : String :=
  "@" ++ a.simpleName ++
  match a.name, a.default with
  | some name, some default => "(\"" ++ name ++ "\", default=\"" ++ default ++ "\")"
  | some name, none => "(\"" ++ name ++ "\")"
  | none, _ => ""

instance : ToString Annotation := ⟨text⟩

end Annotation

/-- A parameter of a method or constructor. -/
structure Parameter where
  name : String
  type : TypeRef
  annotations : List Annotation := []
deriving DecidableEq, Repr, Inhabited

/-- A method or constructor. -/
structure Method where
  name : String
  returns : TypeRef := .void
  parameters : List Parameter := []
  isStatic : Bool := false
  isAbstract : Bool := false
  visibility : Visibility := .public
  provides : Bool := false
  inject : Bool := false
  annotations : List Annotation := []
deriving DecidableEq, Repr, Inhabited

namespace Method

def isPublic (m : Method) : Bool := m.visibility == .public

/-- `name(Type a, Type b)`: how messages refer to the method. -/
def signature (m : Method) : String :=
  m.name ++ "(" ++ ", ".intercalate (m.parameters.map fun p => p.type.text ++ " " ++ p.name) ++ ")"

/-- A method overrides an inherited one if the two have this in common. -/
def overrideKey (m : Method) : String × List TypeRef :=
  (m.name, m.parameters.map (·.type))

/-- Whether the only parameter is a `java.lang.String`. -/
def takesString (m : Method) : Bool :=
  match m.parameters with
  | [p] => p.type.isString
  | _ => false

/-- Whether this is a public static method `name(java.lang.String)` that returns an `owner`. -/
def isStringFactory (m : Method) (name owner : String) : Bool :=
  m.name == name && m.isStatic && m.isPublic && m.takesString && m.returns.isNamed owner

end Method

structure Field where
  name : String
  type : TypeRef
  inject : Bool := false
  isStatic : Bool := false
  annotations : List Annotation := []
deriving DecidableEq, Repr, Inhabited

/-- A declared type. -/
structure TypeDecl where
  name : String
  kind : Kind := .class
  /-- The modules that a component or module includes. -/
  modules : List String := []
  superclass : Option String := none
  isAbstract : Bool := false
  constructors : List Method := []
  methods : List Method := []
  fields : List Field := []
deriving DecidableEq, Repr, Inhabited

namespace TypeDecl

/-- The type itself as a reference. -/
def ref (d : TypeDecl) : TypeRef := .declared d.name []

/-- The methods by which a component hands out values: no parameters, and a result. -/
def provisionMethods (d : TypeDecl) : List Method :=
  d.methods.filter fun m => m.parameters.isEmpty && !m.returns.isVoid

/-- The methods by which a module makes values: marked as such, public, concrete, with a result. -/
def providesMethods (d : TypeDecl) : List Method :=
  d.methods.filter fun m => m.provides && m.isPublic && !m.isAbstract && !m.returns.isVoid

def injectConstructors (d : TypeDecl) : List Method := d.constructors.filter (·.inject)

def injectMethods (d : TypeDecl) : List Method :=
  d.methods.filter fun m => m.inject && !m.isStatic

def injectFields (d : TypeDecl) : List Field :=
  d.fields.filter fun f => f.inject && !f.isStatic

/-- Whether a value can be made by a public constructor from one `java.lang.String`. -/
def hasStringConstructor (d : TypeDecl) : Bool :=
  !d.isAbstract && d.constructors.any fun c => c.isPublic && c.takesString

/-- Whether a public static method `name(java.lang.String)` makes values of the type. Every enum
has a `valueOf`. -/
def hasStringFactory (d : TypeDecl) (name : String) : Bool :=
  (d.kind == .enum && name == "valueOf") || d.methods.any (·.isStringFactory name d.name)

end TypeDecl

end Wiring
