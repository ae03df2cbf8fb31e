/-!
The results of a fallible function along a list, up to its first failure.
-/

namespace Wiring

variable {α β ε : Type}

/-- The results before the first failure, and that failure if there is one. -/
def untilFailure (f : α → Except ε β) : List α → List β × Option ε
  | [] => ([], none)
  | a :: as =>
    match f a with
    | .error e => ([], some e)
    | .ok b => (b :: (untilFailure f as).1, (untilFailure f as).2)

theorem untilFailure_eq_none_iff {f : α → Except ε β} {as : List α} :
    (untilFailure f as).2 = none ↔ as.mapM f = .ok (untilFailure f as).1 := by
  induction as with
  | nil => simp [untilFailure, pure, Except.pure]
  | cons a as ih =>
    rw [List.mapM_cons, untilFailure]
    cases f a with
    | error e => simp [bind, Except.bind]
    | ok b =>
      simp only [bind, Except.bind, pure, Except.pure]
      rw [ih]
      cases as.mapM f <;> simp

end Wiring
