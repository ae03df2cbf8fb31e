/-!
# Ascending lists

Lists in the ascending order of a comparison that hold no two equal elements. `insert` puts an
element in its place, where it takes the place of an equal one.
-/

namespace Wiring.Ascending

variable {α : Type}

/-- Every element comes before every later one. -/
def IsAscending (cmp : α → α → Ordering) (as : List α) : Prop :=
  as.Pairwise fun a b => cmp a b = .lt

def insert (cmp : α → α → Ordering) (a : α) : List α → List α
  | [] => [a]
  | b :: bs =>
    match cmp a b with
    | .lt => a :: b :: bs
    | .eq => a :: bs
    | .gt => b :: insert cmp a bs

/-- The elements of a list in ascending order; of equal ones the first stays. -/
def ofList (cmp : α → α → Ordering) (as : List α) : List α :=
  as.foldr (insert cmp) []

theorem mem_insert {cmp : α → α → Ordering} {a b : α} {bs : List α}
    (h : b ∈ insert cmp a bs) : b = a ∨ b ∈ bs := by
  induction bs with
  | nil => simpa [insert] using h
  | cons c cs ih =>
    unfold insert at h
    split at h <;> grind

theorem isAscending_insert {cmp : α → α → Ordering} [Std.TransCmp cmp] {a : α} {as : List α}
    (h : IsAscending cmp as) : IsAscending cmp (insert cmp a as) := by
  induction as with
  | nil => simp [insert, IsAscending]
  | cons b bs ih =>
    have hb := List.pairwise_cons.1 h
    unfold insert
    split
    next hlt =>
      refine List.pairwise_cons.2 ⟨fun c hc => ?_, h⟩
      rcases List.mem_cons.1 hc with rfl | hc
      · exact hlt
      · exact Std.TransCmp.lt_trans hlt (hb.1 c hc)
    next heq =>
      refine List.pairwise_cons.2 ⟨fun c hc => ?_, hb.2⟩
      exact Std.TransCmp.lt_of_eq_of_lt heq (hb.1 c hc)
    next hgt =>
      refine List.pairwise_cons.2 ⟨fun c hc => ?_, ih hb.2⟩
      rcases mem_insert hc with rfl | hc
      · exact Std.OrientedCmp.lt_of_gt hgt
      · exact hb.1 c hc

end Wiring.Ascending
