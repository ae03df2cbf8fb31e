import Wiring.Diagnostic

/-!
Counting diagnostics: part by part, where each part has one severity.
-/

namespace Wiring.Diagnostic

variable {ds ds' : List Diagnostic}

theorem count_append (s : Severity) : count (ds ++ ds') s = count ds s + count ds' s := by
  simp [count]

/-- Diagnostics of one severity count towards that one only. -/
theorem count_of_severity {t : Severity} (h : ∀ x ∈ ds, x.severity = t) (s : Severity) :
    count ds s = if t = s then ds.length else 0 := by
  unfold count
  split
  · next hst =>
    subst hst
    rw [List.filter_eq_self.2 fun x hx => by simp [h x hx]]
  · next hst =>
    rw [List.filter_eq_nil_iff.2 fun x hx => by simp [h x hx, hst]]
    rfl

end Wiring.Diagnostic
