import Wiring.Proofs.Order.SortedMap
import Wiring.Proofs.Parameters.Table

/-!
# Representations as keys

Representations are told apart by the structure of their types but ordered by the texts of these.
Among types that can be parsed the two agree, for no two share a text. So the order is total on such
representations, and a map or table that is sorted by it neither merges two of them nor splits one.
-/

namespace Wiring

/-- What a sorted map relies on: among the keys with a property the comparison is a total order, in
which equal keys, and only these, have the same place. -/
structure Ascending.IsKeyOrder {κ : Type} (cmp : κ → κ → Ordering) (p : κ → Prop) : Prop where
  refl : ∀ a, p a → (cmp a a).isLE
  antisymm : ∀ a b, p a → p b → (cmp a b).isLE → (cmp b a).isLE → a = b
  trans : ∀ a b c, p a → p b → p c → (cmp a b).isLE → (cmp b c).isLE → (cmp a c).isLE
  total : ∀ a b, p a → p b → (cmp a b).isLE ∨ (cmp b a).isLE
  swap_eq : ∀ a b, p a → p b → (cmp a b).swap = cmp b a
  eq_iff : ∀ a b, p a → p b → (cmp a b = .eq ↔ a = b)

/-- A comparison that is an order is a total one; what is left to show is that it tells the keys
apart. -/
theorem Ascending.IsKeyOrder.of_eq_of_compare_eq {κ : Type} {cmp : κ → κ → Ordering}
    [Std.TransCmp cmp] {p : κ → Prop} (h : ∀ a b, p a → p b → cmp a b = .eq → a = b) :
    IsKeyOrder cmp p where
  refl a _ := Std.ReflCmp.isLE_rfl
  antisymm a b ha hb hab hba := h a b ha hb (Std.OrientedCmp.isLE_antisymm hab hba)
  trans a b c _ _ _ hab hbc := Std.TransCmp.isLE_trans hab hbc
  total a b _ _ := by
    cases hab : cmp a b with
    | lt => exact .inl rfl
    | eq => exact .inl rfl
    | gt =>
      have hba : cmp b a = .lt := Std.OrientedCmp.lt_of_gt hab
      exact .inr (by rw [hba]; rfl)
  swap_eq a b _ _ := Std.OrientedCmp.eq_swap.symm
  eq_iff a b ha hb := by
    constructor
    · exact h a b ha hb
    · rintro rfl
      exact Std.ReflCmp.compare_self

namespace Representation

/-- No default comes before any default, and defaults come in the order of their texts. -/
inductive DefaultPrecedes : Option String → Option String → Prop
  | none (b : String) : DefaultPrecedes none (some b)
  | some {a b : String} (h : a < b) : DefaultPrecedes (some a) (some b)

/-- The order by name, then by default, then by the text of the type. -/
inductive Precedes (a b : Representation) : Prop
  | name (h : a.name < b.name)
  | default (hname : a.name = b.name) (h : DefaultPrecedes a.default b.default)
  | type (hname : a.name = b.name) (hdefault : a.default = b.default)
    (h : a.type.text < b.type.text)

theorem compareDefault_eq_lt_iff {a b : Option String} :
    compareDefault a b = .lt ↔ DefaultPrecedes a b := by
  constructor
  · intro h
    cases a with
    | none =>
      cases b with
      | none => cases h
      | some b => exact .none b
    | some a =>
      cases b with
      | none => cases h
      | some b => exact .some (compareOfLessAndEq_eq_lt.1 h)
  · rintro (_ | h)
    · rfl
    · exact compareOfLessAndEq_eq_lt.2 h

theorem compareDefault_eq_eq_iff {a b : Option String} : compareDefault a b = .eq ↔ a = b := by
  rw [compareDefault_eq_compare]
  exact Std.LawfulEqCmp.compare_eq_iff_eq

/-- **The comparison is lexicographic.** -/
theorem compare_eq_lt_iff {a b : Representation} : a.compare b = .lt ↔ a.Precedes b := by
  have hname : Ord.compare a.name b.name = .lt ↔ a.name < b.name := compareOfLessAndEq_eq_lt
  have htext : Ord.compare a.type.text b.type.text = .lt ↔ a.type.text < b.type.text :=
    compareOfLessAndEq_eq_lt
  rw [compare, Ordering.then_eq_lt, Ordering.then_eq_lt, hname, htext, compareDefault_eq_lt_iff,
    compareDefault_eq_eq_iff, Std.LawfulEqCmp.compare_eq_iff_eq]
  constructor
  · rintro (h | ⟨hname, h | ⟨hdefault, h⟩⟩)
    · exact .name h
    · exact .default hname h
    · exact .type hname hdefault h
  · rintro (h | ⟨hname, h⟩ | ⟨hname, hdefault, h⟩)
    · exact .inl h
    · exact .inr ⟨hname, .inl h⟩
    · exact .inr ⟨hname, .inr ⟨hdefault, h⟩⟩

end Representation

namespace ParameterTable

variable {d : Domain} {requests : List Request}

/-- A group of a table holds all requests for one representation, and none for another. -/
theorem mem_requests_iff (hparsed : AllParsed requests) {g : RepresentationGroup}
    (hg : g ∈ (build d requests).representations) {r : Request} :
    r ∈ g.requests ↔ r ∈ requests ∧ r.representation = g.key := by
  obtain ⟨key, hkey, rfl⟩ := List.mem_map.1 hg
  rw [requests_representationGroup hparsed (isParsed_of_mem_keys hparsed hkey)]
  simp [representationGroup]

end ParameterTable

open Ascending (IsAscending IsKeyOrder sortedMap) in
/-- **Representations of types that can be parsed are keys**: their comparison is a total
lexicographic order that agrees with equality, so sorted maps and parameter tables hold under each
of them what belongs to it and nothing else. -/
theorem Representation.isKeyOrder_compare :
    IsKeyOrder Representation.compare (·.type.IsParsed) ∧
      (∀ a b : Representation, a.compare b = .lt ↔ a.Precedes b) ∧
      (∀ (β : Type) (bindings : List (Representation × β)),
        (∀ b ∈ bindings, b.1.type.IsParsed) →
          IsAscending Representation.compare
            ((sortedMap Representation.compare bindings).map Prod.fst) ∧
          ∀ key value, key.type.IsParsed →
            ((key, value) ∈ sortedMap Representation.compare bindings ↔
              bindings.lookup key = some value)) ∧
      ∀ (d : Domain) (requests : List Request), ParameterTable.AllParsed requests →
        ((ParameterTable.build d requests).representations.map (·.key)).Nodup ∧
          ∀ g ∈ (ParameterTable.build d requests).representations, ∀ r,
            r ∈ g.requests ↔ r ∈ requests ∧ r.representation = g.key := by
  refine ⟨?_, fun a b => compare_eq_lt_iff, ?_, ?_⟩
  · exact .of_eq_of_compare_eq fun a b ha hb => eq_of_compare_eq ha hb
  · intro β bindings hparsed
    refine ⟨Ascending.isAscending_keys_sortedMap bindings, fun key value hkey => ?_⟩
    exact Ascending.mem_sortedMap_iff fun b hb => eq_of_compare_eq (hparsed b hb) hkey
  · intro d requests hparsed
    rw [ParameterTable.map_key_representations]
    exact ⟨ParameterTable.nodup_keys, fun g hg r => ParameterTable.mem_requests_iff hparsed hg⟩

end Wiring
