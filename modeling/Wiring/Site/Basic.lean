import Wiring.Declaration
import Wiring.Error.Basic

/-!
# Injection sites

A site is one place in the injection graph that consumes a value: the result of a provision method,
a parameter, or a field. Its declared type says how the value is delivered: as it is, or in one of
the wrappers `Optional`, `Provider` and `Lazy`, of which only the outermost counts.
-/

namespace Wiring

/-- Where a site was found. -/
inductive SiteKind
  | provisionResult
  | staticProvidesParameter
  | instanceProvidesParameter
  | constructorParameter
  | methodParameter
  | field
deriving DecidableEq, Repr, Inhabited

/-- The kind in words. -/
def SiteKind.text : SiteKind → String
  | provisionResult => "component provision result"
  | staticProvidesParameter => "static provides parameter"
  | instanceProvidesParameter => "provides parameter"
  | constructorParameter => "constructor parameter"
  | methodParameter => "method parameter"
  | field => "field"

/-- The kind as a report spells it. -/
def SiteKind.tag : SiteKind → String
  | provisionResult => "component-provision-result"
  | staticProvidesParameter => "module-static-provides-parameter"
  | instanceProvidesParameter => "module-instance-provides-parameter"
  | constructorParameter => "inject-constructor-parameter"
  | methodParameter => "inject-method-parameter"
  | field => "inject-field"

/-- How a declared type relates to the value that it provides. -/
inductive ProvisionStyle
  /-- A primitive, which is never null. -/
  | primitive
  /-- `Optional<T>` provides a `T` that may be absent. -/
  | optional
  | provider
  | lazy
  /-- Any other type provides itself. -/
  | verbatim
deriving DecidableEq, Repr, Inhabited

namespace ProvisionStyle

def tag : ProvisionStyle → String
  | primitive => "PRIMITIVE"
  | optional => "OPTIONAL"
  | provider => "PROVIDER"
  | lazy => "LAZY"
  | verbatim => "VERBATIM"

/-- The style of a declared type, and the type that it provides. -/
def classify (declared : TypeRef) : ProvisionStyle × TypeRef :=
  if declared.isPrimitive then (primitive, declared)
  else if let some inner := declared.singleArgOf? [TypeRef.optionalName] then (optional, inner)
  else if let some inner := declared.singleArgOf? TypeRef.providerNames then (provider, inner)
  else if let some inner := declared.singleArgOf? TypeRef.lazyNames then (lazy, inner)
  else (verbatim, declared)

/-- Whether the style alone makes a site nullable. -/
def isNullable (s : ProvisionStyle) : Bool := s == optional

end ProvisionStyle

/-- The type that a declared type provides. -/
def TypeRef.provided (t : TypeRef) : TypeRef := (ProvisionStyle.classify t).2

/-- A place that consumes a value, as it is declared. -/
structure InjectionPoint where
  /-- The declaring element as messages refer to it. -/
  element : String
  kind : SiteKind
  type : TypeRef
  annotations : List Annotation
deriving DecidableEq, Repr, Inhabited

/-- An injection site. -/
structure Site where
  element : String
  kind : SiteKind
  style : ProvisionStyle
  declaredType : TypeRef
  providedType : TypeRef
  /-- The only qualifier among the annotations, if there is one. -/
  qualifier : Option Annotation
  annotations : List Annotation
  /-- Whether the site accepts null. -/
  nullable : Bool
deriving DecidableEq, Repr, Inhabited

namespace Site

/-- The site at an injection point. A second qualifier is refused, and so is a mark that lets a
primitive be null. -/
def ofPoint (p : InjectionPoint) : Except Error Site :=
  let (style, provided) := ProvisionStyle.classify p.type
  let qualifiers := p.annotations.filter (·.qualifier)
  let marked := p.annotations.any (·.isNullable)
  if 1 < qualifiers.length then .error (.duplicateQualifier p.element)
  else if marked && style == .primitive then .error (.nullablePrimitive p.element p.type.text)
  else .ok
    { element := p.element
      kind := p.kind
      style
      declaredType := p.type
      providedType := provided
      qualifier := qualifiers.head?
      annotations := p.annotations
      nullable := marked || style.isNullable }

/-- The name that the qualifier carries. -/
def qualifierName (s : Site) : Option String := s.qualifier.bind (·.name)

/-- The default that the qualifier carries. -/
def default (s : Site) : Option String := s.qualifier.bind (·.default)

def text (s : Site) : String :=
  s.element ++ " (" ++ s.kind.text ++ "): " ++ s.declaredType.text ++
  (match s.qualifier with
    | some q => " " ++ q.text
    | none => "") ++
  (if s.nullable then " nullable" else "")

instance : ToString Site := ⟨text⟩

end Site

end Wiring
