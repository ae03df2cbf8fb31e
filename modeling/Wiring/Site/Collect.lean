import Wiring.Walk.Basic

/-!
The injection sites that a walk meets.
-/

namespace Wiring

/-- The sites at the points of a walk, in order. Whichever comes first, a point that is refused or
the failure of the walk, is the error. -/
def Walk.sites (w : Walk) : Except Error (List Site) := do
  let sites ← (w.events.flatMap Walk.Event.points).mapM Site.ofPoint
  match w.failure with
  | none => return sites
  | some e => throw e

/-- The injection sites below the component `root`. -/
def Model.sites (m : Model) (root : String) : Except Error (List Site) :=
  (m.walk root).sites

end Wiring
