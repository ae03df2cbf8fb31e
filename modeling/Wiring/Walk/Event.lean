import Wiring.Site.Basic

/-!
# Walk events

A walk reports a component, the modules below it and the classes they ask for, each as a block of
events between its beginning and its end.
-/

namespace Wiring.Walk

inductive Event
  | beginComponent (component : TypeDecl)
  | componentModule (component : TypeDecl) (name : String)
  | provisionMethod (component : TypeDecl) (method : Method)
  | endComponent (component : TypeDecl)
  | beginModule (owner : TypeDecl)
  | includedModule (owner : TypeDecl) (name : String)
  /-- A provides method of the module `owner`, which `declaring` declares: the module itself or one
  of its superclasses. -/
  | providesMethod (owner declaring : TypeDecl) (method : Method)
  | endModule (owner : TypeDecl)
  | beginClass (owner : TypeDecl)
  | constructorParameter (owner : TypeDecl) (constructor : Method) (parameter : Parameter)
  | methodParameter (owner : TypeDecl) (method : Method) (parameter : Parameter)
  | field (owner : TypeDecl) (field : Field)
  | endClass (owner : TypeDecl)
deriving DecidableEq, Repr

namespace Event

/-- The types that an event asks for, in order. -/
def requests : Event → List TypeRef
  | provisionMethod _ m => [m.returns]
  | providesMethod _ _ m => m.parameters.map (·.type)
  | constructorParameter _ _ p => [p.type]
  | methodParameter _ _ p => [p.type]
  | field _ f => [f.type]
  | _ => []

/-- The injection point at a parameter of the method `m` of the type `owner`. -/
def parameterPoint (kind : SiteKind) (owner : String) (m : Method) (p : Parameter) :
    InjectionPoint where
  element := "parameter '" ++ p.name ++ "' of " ++ owner ++ "." ++ m.signature
  kind
  type := p.type
  annotations := p.annotations

/-- The injection points that an event reports. Those of a provides method belong to the type that
declares it, those of an injected member to the class that is walked. -/
def points : Event → List InjectionPoint
  | provisionMethod c m =>
    [{ element := "provision method " ++ c.name ++ "." ++ m.name ++ "()"
       kind := .provisionResult
       type := m.returns
       annotations := m.annotations }]
  | providesMethod _ declaring m =>
    m.parameters.map <| parameterPoint
      (if m.isStatic then .staticProvidesParameter else .instanceProvidesParameter)
      declaring.name m
  | constructorParameter c m p => [parameterPoint .constructorParameter c.name m p]
  | methodParameter c m p => [parameterPoint .methodParameter c.name m p]
  | field c f =>
    [{ element := "field " ++ c.name ++ "." ++ f.name
       kind := .field
       type := f.type
       annotations := f.annotations }]
  | _ => []

end Event

end Wiring.Walk
