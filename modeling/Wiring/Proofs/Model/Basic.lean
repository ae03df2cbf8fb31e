import Wiring.Model.Basic

/-!
Looking types up: a type is found under its own name, so a name leads to one type.
-/

namespace Wiring.Model

variable {m : Model} {name : String} {d : TypeDecl}

theorem name_of_get? (h : m.get? name = some d) : d.name = name := by
  have := List.find?_some h
  simpa using this

theorem get?_name_of_get? (h : m.get? name = some d) : m.get? d.name = some d := by
  rwa [name_of_get? h]

theorem name_mem_names_of_get? (h : m.get? name = some d) : name ∈ m.names := by
  rw [← name_of_get? h]
  exact List.mem_map_of_mem (List.mem_of_find?_eq_some h)

end Wiring.Model
