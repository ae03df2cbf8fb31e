import Wiring.Graph.Basic
import Wiring.Walk.Basic

/-!
The dependency graph that a walk reveals: a component needs the modules that it includes and the
types that it hands out, a module the modules that it includes and the parameters of its provides
methods, a class the types that are injected into it.
-/

namespace Wiring

/-- The declared type of this name as a node, or an undeclared one. -/
def Model.node (m : Model) (name : String) : Node :=
  ⟨name, (m.get? name).map (·.kind)⟩

/-- The node of the type that a reference provides. -/
def Model.typeNode (m : Model) (t : TypeRef) : Node :=
  match t.provided.erasure? with
  | some name => m.node name
  | none => ⟨t.provided.text, none⟩

/-- The type that an event is about, and the types that the event shows it to need. -/
def Model.dependencies (m : Model) : Walk.Event → Option (TypeDecl × List Node)
  | .componentModule c name => some (c, [m.node name])
  | .provisionMethod c method => some (c, [m.typeNode method.returns])
  | .includedModule d name => some (d, [m.node name])
  | .providesMethod d _ method => some (d, method.parameters.map fun p => m.typeNode p.type)
  | .constructorParameter d _ p => some (d, [m.typeNode p.type])
  | .methodParameter d _ p => some (d, [m.typeNode p.type])
  | .field d f => some (d, [m.typeNode f.type])
  | _ => none

/-- Adds to a graph what an event reveals. -/
def Model.addEvent (m : Model) (g : Graph) (e : Walk.Event) : Graph :=
  match e, m.dependencies e with
  | .beginComponent c, _ => g.addNode (m.node c.name)
  | _, some (d, targets) => targets.foldl (fun g n => g.addDependency (m.node d.name) n) g
  | _, none => g

/-- The dependency graph below the component `root`. -/
def Model.graph (m : Model) (root : String) : Except Error Graph :=
  let w := m.walk root
  match w.failure with
  | none => .ok (w.events.foldl m.addEvent Graph.empty)
  | some e => .error e

end Wiring
