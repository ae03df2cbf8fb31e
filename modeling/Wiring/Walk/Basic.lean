import Wiring.Model.Basic
import Wiring.Order.FirstPerKey
import Wiring.Order.UntilFailure
import Wiring.Walk.Event

/-!
# Walks

A walk begins at a component. It reports the component, then the modules that can be reached through
module references, breadth first and each once, then the classes behind the types that were asked
for, breadth first and each once. A reference that leads to no module ends the walk with an error,
before any class is reported.
-/

namespace Wiring

/-- A reference to a module, and the type that holds it. -/
structure ModuleRef where
  name : String
  referencedBy : String
deriving DecidableEq, Repr

/-- The module references of a component or module. -/
def TypeDecl.moduleRefs (d : TypeDecl) : List ModuleRef :=
  d.modules.map fun name => ⟨name, d.name⟩

/-- The events of a walk, and the error that ended it if one did. -/
structure Walk where
  events : List Walk.Event
  failure : Option Error
deriving DecidableEq, Repr

namespace Walk

/-- Folds the events up to the first at which `step` fails; if it never does, the failure is that
of the walk. -/
def foldUntil {σ : Type} (w : Walk) (step : σ → Event → Except Error σ) (start : σ) :
    σ × Option Error :=
  go start w.events
where
  go (state : σ) : List Event → σ × Option Error
    | [] => (state, w.failure)
    | e :: es =>
      match step state e with
      | .ok next => go next es
      | .error error => (state, some error)

end Walk

namespace Model

/-- The component that a walk may begin at. -/
def component? (m : Model) (root : String) : Except Error TypeDecl :=
  match m.get? root with
  | none => .error (.unknownType root "walk root" (m.closest? root))
  | some d => if d.kind = .component then .ok d else .error (.notAComponent root)

/-- The module that a reference leads to. -/
def module? (m : Model) (r : ModuleRef) : Except Error TypeDecl :=
  match m.get? r.name with
  | none => .error (.unknownType r.name r.referencedBy (m.closest? r.name))
  | some d => if d.kind = .module then .ok d else .error (.notAModule r.name r.referencedBy)

/-- The module references that the module behind a reference holds. -/
def includedRefs (m : Model) (r : ModuleRef) : List ModuleRef :=
  match m.module? r with
  | .ok d => d.moduleRefs
  | .error _ => []

/-- The module references below a component, breadth first; of those with one name the first. -/
def moduleOrder (m : Model) (component : TypeDecl) : List ModuleRef :=
  BreadthFirst.visit (·.name) m.includedRefs m.names [] component.moduleRefs

/-- The class behind a requested type: the type that it provides, if the model declares it. -/
def requested? (m : Model) (t : TypeRef) : Option TypeDecl :=
  m.resolve? t.provided

/-- The provides methods of a module and of its superclasses, nearest first, each with the type that
declares it. A method that a nearer one overrides is left out. -/
def providesMethods (m : Model) (d : TypeDecl) : List (TypeDecl × Method) :=
  firstPerKey (·.2.overrideKey) <|
    (m.lineage d.name).flatMap fun declaring => declaring.providesMethods.map (declaring, ·)

open Walk.Event

def componentBlock (c : TypeDecl) : List Walk.Event :=
  beginComponent c :: c.modules.map (componentModule c) ++
    c.provisionMethods.map (provisionMethod c) ++ [endComponent c]

def moduleBlock (m : Model) (d : TypeDecl) : List Walk.Event :=
  beginModule d :: d.modules.map (includedModule d) ++
    (m.providesMethods d).map (fun (declaring, method) => providesMethod d declaring method) ++
    [endModule d]

/-- The injected members of a class: its own constructors, then the methods and fields of its
lineage. -/
def classBlock (m : Model) (d : TypeDecl) : List Walk.Event :=
  beginClass d ::
    (d.injectConstructors.flatMap fun c => c.parameters.map (constructorParameter d c)) ++
    ((m.lineage d.name).flatMap fun declaring =>
      (declaring.injectMethods.flatMap fun method =>
        method.parameters.map (methodParameter d method)) ++
      declaring.injectFields.map (Walk.Event.field d)) ++
    [endClass d]

/-- The declared classes that some events ask for, in order. -/
def requestedClasses (m : Model) (events : List Walk.Event) : List TypeDecl :=
  (events.flatMap requests).filterMap m.requested?

/-- The classes to walk, breadth first, given those that are asked for at first. -/
def classOrder (m : Model) (first : List TypeDecl) : List TypeDecl :=
  BreadthFirst.visit (·.name) (fun d => m.requestedClasses (m.classBlock d)) m.names [] first

/-- The walk from the type `root`. -/
def walk (m : Model) (root : String) : Walk :=
  match m.component? root with
  | .error e => ⟨[], some e⟩
  | .ok component =>
    let (modules, failure) := untilFailure m.module? (m.moduleOrder component)
    let events := componentBlock component ++ modules.flatMap m.moduleBlock
    match failure with
    | some e => ⟨events, some e⟩
    | none =>
      ⟨events ++ (m.classOrder (m.requestedClasses events)).flatMap m.classBlock, none⟩

end Model

end Wiring
