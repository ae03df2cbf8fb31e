import Wiring.Data.Declaration
import Wiring.Provider.Pass

/-!
# Results as data

What reports say of sites, providers, passes and diagnostics.
-/

namespace Wiring

def Site.data (s : Site) : Data :=
  .table
    [ ("element", .string s.element),
      ("kind", .string s.kind.tag),
      ("style", .string s.style.tag),
      ("declared_type", s.declaredType.data),
      ("provided_type", s.providedType.data),
      ("qualifier", .ofOption Annotation.data s.qualifier),
      ("annotations", .ofList Annotation.data s.annotations),
      ("nullable", .boolean s.nullable) ]

/-- The kind of a conversion and what it is made of. -/
def Conversion.data : Conversion → Data
  | identity => .table [("strategy", .string "identity")]
  | parsePrimitive kind =>
    .table [("strategy", .string "parse-primitive"), ("primitive", .string kind.keyword)]
  | valueOf target => .table [("strategy", .string "value-of"), ("target", target.data)]
  | fromString target => .table [("strategy", .string "from-string"), ("target", target.data)]
  | construct target => .table [("strategy", .string "constructor"), ("target", target.data)]
  | eachElement elementType element =>
    .table
      [ ("strategy", .string "each-element"),
        ("element_type", elementType.data),
        ("element", element.data) ]

def Provider.data (p : Provider) : Data :=
  .table
    [ ("domain", .string p.domain),
      ("name", .string p.name),
      ("default_value", .ofOption .string p.default),
      ("provided_type", p.providedType.data),
      ("source_type", p.sourceType.data),
      ("required", .boolean p.required),
      ("nullable", .boolean p.nullable),
      ("conversion", p.conversion.data),
      ("expression", .string p.expression),
      ("method_name", .string p.methodName),
      ("sites", .ofList .string p.sites) ]

def Summary.data (s : Summary) : Data :=
  .table
    [ ("sites", .ofNat s.sites),
      ("parameters", .ofNat s.parameters),
      ("providers", .ofNat s.providers),
      ("skipped", .ofNat s.skipped) ]

def Diagnostic.data (d : Diagnostic) : Data :=
  .table
    [ ("severity", .string d.severity.name),
      ("message", .string d.message),
      ("element", .ofOption .string d.element) ]

end Wiring
