/-!
# Breadth-first search

`visit` takes items from the front of a queue and puts the successors of each new one at its end.
Items with one key count as the same item, of which the first is visited. An item has successors
only if its key is in a finite list, so the search ends: each step either shortens the queue or uses
up one more key of that list.
-/

namespace Wiring.BreadthFirst

variable {α κ : Type} [DecidableEq κ]

/-- How many keys of `scope` are not in `seen`. -/
def unseen (scope seen : List κ) : Nat :=
  (scope.filter fun k => k ∉ seen).length

theorem unseen_cons_lt {scope seen : List κ} {k : κ} (hk : k ∈ scope) (hs : k ∉ seen) :
    unseen scope (k :: seen) < unseen scope seen := by
  have hsub : scope.filter (fun j => j ∉ k :: seen) =
      (scope.filter fun j => j ∉ seen).filter (· ≠ k) := by
    rw [List.filter_filter]
    congr 1
    funext j
    simp
  unfold unseen
  rw [hsub]
  refine List.length_filter_lt_length_iff_exists.2 ⟨k, ?_, by simp⟩
  simp [hk, hs]

theorem unseen_cons_le (scope seen : List κ) (k : κ) :
    unseen scope (k :: seen) ≤ unseen scope seen := by
  unfold unseen
  have hsub : scope.filter (fun j => j ∉ k :: seen) =
      (scope.filter fun j => j ∉ seen).filter (· ≠ k) := by
    rw [List.filter_filter]
    congr 1
    funext j
    simp
  rw [hsub]
  exact List.length_filter_le ..

/-- The items visited from a queue, in order, given the keys that were visited before. -/
def visit (key : α → κ) (next : α → List α) (scope seen : List κ) (queue : List α) : List α :=
  match queue with
  | [] => []
  | a :: rest =>
    if hs : key a ∈ seen then visit key next scope seen rest
    else if hk : key a ∈ scope then
      have := unseen_cons_lt hk hs
      a :: visit key next scope (key a :: seen) (rest ++ next a)
    else a :: visit key next scope (key a :: seen) rest
termination_by (unseen scope seen, queue.length)
decreasing_by
  · exact Prod.Lex.right _ (Nat.lt_succ_self _)
  · exact Prod.Lex.left _ _ this
  · rcases Nat.lt_or_eq_of_le (unseen_cons_le scope seen (key a)) with h | h
    · exact Prod.Lex.left _ _ h
    · rw [h]; exact Prod.Lex.right _ (Nat.lt_succ_self _)

end Wiring.BreadthFirst
