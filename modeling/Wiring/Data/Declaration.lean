import Wiring.Data.Decoder
import Wiring.Domain

/-!
# Declarations and domains as data

The keys under which documents and reports hold declarations and domains.
-/

namespace Wiring

/-- The canonical text of a type. -/
def TypeRef.data (t : TypeRef) : Data := .string t.text

namespace Annotation

def decoder : Decoder Annotation :=
  .record
    [ .needed "type" .string fun a type => { a with type },
      .defaulted "qualifier" .boolean fun a qualifier => { a with qualifier },
      .defaulted "name" (.optional .string) fun a name => { a with name },
      .defaulted "default_value" (.optional .string) fun a default => { a with default } ]
    { type := "" }

def data (a : Annotation) : Data :=
  .table
    [ ("type", .string a.type),
      ("qualifier", .boolean a.qualifier),
      ("name", .ofOption .string a.name),
      ("default_value", .ofOption .string a.default) ]

end Annotation

namespace Parameter

def decoder : Decoder Parameter :=
  .record
    [ .needed "name" .string fun p name => { p with name },
      .needed "type" .typeRef fun p type => { p with type },
      .defaulted "annotations" (.list Annotation.decoder) fun p annotations =>
        { p with annotations } ]
    { name := "", type := .void }

def data (p : Parameter) : Data :=
  .table
    [ ("name", .string p.name),
      ("type", p.type.data),
      ("annotations", .ofList Annotation.data p.annotations) ]

end Parameter

def Visibility.all : List Visibility := [.public, .protected, .package, .private]

namespace Method

def decoder : Decoder Method :=
  .record
    [ .needed "name" .string fun m name => { m with name },
      .defaulted "returns" .typeRef fun m returns => { m with returns },
      .defaulted "parameters" (.list Parameter.decoder) fun m parameters => { m with parameters },
      .defaulted "static" .boolean fun m isStatic => { m with isStatic },
      .defaulted "abstract" .boolean fun m isAbstract => { m with isAbstract },
      .defaulted "visibility" (.oneOf Visibility.all Visibility.name) fun m visibility =>
        { m with visibility },
      .defaulted "provides" .boolean fun m provides => { m with provides },
      .defaulted "inject" .boolean fun m inject => { m with inject },
      .defaulted "annotations" (.list Annotation.decoder) fun m annotations =>
        { m with annotations } ]
    { name := "" }

def data (m : Method) : Data :=
  .table
    [ ("name", .string m.name),
      ("returns", m.returns.data),
      ("parameters", .ofList Parameter.data m.parameters),
      ("static", .boolean m.isStatic),
      ("abstract", .boolean m.isAbstract),
      ("visibility", .string m.visibility.name),
      ("provides", .boolean m.provides),
      ("inject", .boolean m.inject),
      ("annotations", .ofList Annotation.data m.annotations) ]

end Method

namespace Field

def decoder : Decoder Field :=
  .record
    [ .needed "name" .string fun f name => { f with name },
      .needed "type" .typeRef fun f type => { f with type },
      .defaulted "inject" .boolean fun f inject => { f with inject },
      .defaulted "static" .boolean fun f isStatic => { f with isStatic },
      .defaulted "annotations" (.list Annotation.decoder) fun f annotations =>
        { f with annotations } ]
    { name := "", type := .void }

def data (f : Field) : Data :=
  .table
    [ ("name", .string f.name),
      ("type", f.type.data),
      ("inject", .boolean f.inject),
      ("static", .boolean f.isStatic),
      ("annotations", .ofList Annotation.data f.annotations) ]

end Field

def Kind.all : List Kind := [.component, .module, .enum, .class]

namespace TypeDecl

def decoder : Decoder TypeDecl :=
  .record
    [ .needed "name" .string fun d name => { d with name },
      .defaulted "kind" (.oneOf Kind.all Kind.name) fun d kind => { d with kind },
      .defaulted "modules" (.list .string) fun d modules => { d with modules },
      .defaulted "superclass" (.optional .string) fun d superclass => { d with superclass },
      .defaulted "abstract" .boolean fun d isAbstract => { d with isAbstract },
      .defaulted "constructors" (.list Method.decoder) fun d constructors =>
        { d with constructors },
      .defaulted "methods" (.list Method.decoder) fun d methods => { d with methods },
      .defaulted "fields" (.list Field.decoder) fun d fields => { d with fields } ]
    { name := "" }

def data (d : TypeDecl) : Data :=
  .table
    [ ("name", .string d.name),
      ("kind", .string d.kind.name),
      ("modules", .ofList .string d.modules),
      ("superclass", .ofOption .string d.superclass),
      ("abstract", .boolean d.isAbstract),
      ("constructors", .ofList Method.data d.constructors),
      ("methods", .ofList Method.data d.methods),
      ("fields", .ofList Field.data d.fields) ]

end TypeDecl

namespace Domain

def decoder : Decoder Domain :=
  .record
    [ .needed "name" .string fun d name => { d with name },
      .needed "qualifier" .string fun d qualifier => { d with qualifier },
      .needed "prefix" .string fun d methodTag => { d with methodTag },
      .defaulted "multi_valued" .boolean fun d multiValued => { d with multiValued } ]
    { name := "", qualifier := "", methodTag := "" }

def data (d : Domain) : Data :=
  .table
    [ ("name", .string d.name),
      ("qualifier", .string d.qualifier),
      ("prefix", .string d.methodTag),
      ("multi_valued", .boolean d.multiValued) ]

end Domain

end Wiring
