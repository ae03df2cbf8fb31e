import Wiring.Declaration

/-!
Declarations built up step by step.
-/

namespace Wiring

namespace Parameter

/-- The parameter with one more annotation. -/
def annotate (p : Parameter) (a : Annotation) : Parameter :=
  { p with annotations := p.annotations ++ [a] }

end Parameter

namespace Field

/-- An injected field. -/
def injected (name : String) (type : TypeRef) : Field := { name, type, inject := true }

/-- The field with one more annotation. -/
def annotate (f : Field) (a : Annotation) : Field :=
  { f with annotations := f.annotations ++ [a] }

end Field

namespace Method

/-- The method with one more parameter. -/
def addParameter (m : Method) (p : Parameter) : Method :=
  { m with parameters := m.parameters ++ [p] }

/-- The method with one more annotation. -/
def annotate (m : Method) (a : Annotation) : Method :=
  { m with annotations := m.annotations ++ [a] }

end Method

namespace TypeDecl

/-- The type with one more included module. -/
def includeModule (d : TypeDecl) (name : String) : TypeDecl :=
  { d with modules := d.modules ++ [name] }

def addMethod (d : TypeDecl) (m : Method) : TypeDecl := { d with methods := d.methods ++ [m] }

def addConstructor (d : TypeDecl) (m : Method) : TypeDecl :=
  { d with constructors := d.constructors ++ [m] }

def addField (d : TypeDecl) (f : Field) : TypeDecl := { d with fields := d.fields ++ [f] }

end TypeDecl

end Wiring
