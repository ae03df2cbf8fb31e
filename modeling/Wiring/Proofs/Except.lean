/-!
Fallible computations one after another: the result of the whole is the result of the second, run on
the result of the first. Where they have a state, the second goes on from the state of the first.
-/

namespace Wiring

variable {ε α β : Type}

theorem bind_eq_ok_iff {x : Except ε α} {f : α → Except ε β} {b : β} :
    x >>= f = .ok b ↔ ∃ a, x = .ok a ∧ f a = .ok b := by
  cases x with
  | error e => simp [bind, Except.bind]
  | ok a => simp [bind, Except.bind]

theorem bind_eq_error_iff {x : Except ε α} {f : α → Except ε β} {e : ε} :
    x >>= f = .error e ↔ x = .error e ∨ ∃ a, x = .ok a ∧ f a = .error e := by
  cases x with
  | error e => simp [bind, Except.bind]
  | ok a => simp [bind, Except.bind]

variable {σ : Type} {x : EStateM ε σ α} {f : α → EStateM ε σ β} {before after : σ}

theorem bind_of_ok {a : α} (h : x before = .ok a after) : (x >>= f) before = f a after := by
  show EStateM.bind x f before = _
  rw [EStateM.bind, h]

theorem bind_of_error {e : ε} (h : x before = .error e after) :
    (x >>= f) before = .error e after := by
  show EStateM.bind x f before = _
  rw [EStateM.bind, h]

end Wiring
