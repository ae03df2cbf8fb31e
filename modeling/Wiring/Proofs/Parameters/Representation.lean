import Wiring.Parameters.Representation
import Wiring.Proofs.TypeRef.Parse

/-!
# The order of representations

The order is lexicographic: name, default, canonical text of the type. Two representations have the
same place in it if they differ at most in types that share a text; among types that can be parsed
no two do.
-/

namespace Wiring.Representation

theorem compareDefault_eq_compare : compareDefault = Ord.compare := by
  funext a b
  cases a <;> cases b <;> rfl

/-- The three comparisons, each of which counts only where the ones before it find no difference. -/
theorem compare_eq_compareLex :
    Representation.compare =
      compareLex (compareOn name) (compareLex (compareOn default) (compareOn fun r => r.type.text)) := by
  funext a b
  rw [compare, compareDefault_eq_compare]
  rfl

instance : Std.TransCmp Representation.compare := by
  rw [compare_eq_compareLex]
  infer_instance

/-- When two representations have the same place in the order. -/
theorem same_iff {a b : Representation} :
    a.same b = true ↔ a.name = b.name ∧ a.default = b.default ∧ a.type.text = b.type.text := by
  rw [same, beq_iff_eq, compare, compareDefault_eq_compare, Ordering.then_eq_eq,
    Ordering.then_eq_eq, Std.LawfulEqCmp.compare_eq_iff_eq, Std.LawfulEqCmp.compare_eq_iff_eq,
    Std.LawfulEqCmp.compare_eq_iff_eq]

/-- **Representations of types that can be parsed have different places in the order.** -/
theorem same_iff_eq {a b : Representation} (ha : a.type.IsParsed) (hb : b.type.IsParsed) :
    a.same b = true ↔ a = b := by
  rw [same_iff]
  constructor
  · intro h
    obtain ⟨hname, hdefault, htext⟩ := h
    have htype := TypeRef.eq_of_text_eq ha hb htext
    cases a
    cases b
    cases hname
    cases hdefault
    cases htype
    rfl
  · rintro rfl
    exact ⟨rfl, rfl, rfl⟩

theorem eq_of_compare_eq {a b : Representation} (ha : a.type.IsParsed) (hb : b.type.IsParsed)
    (h : a.compare b = .eq) : a = b :=
  (same_iff_eq ha hb).1 (by rw [same, h]; rfl)

end Wiring.Representation
