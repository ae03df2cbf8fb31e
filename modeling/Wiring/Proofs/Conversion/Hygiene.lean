import Mathlib.Data.List.Pairwise
import Wiring.Proofs.Conversion.Expr

/-!
# Variables of rendered conversions

A conversion of a list is written as a function whose variables carry the depth of the list in their
names. So the functions of a rendered conversion share no variable: none hides a variable of one that
it stands in, none uses one, and the value stands outside of all of them.
-/

namespace Wiring.Conversion

/-- How many lists are in each other. -/
def lists : Conversion → Nat
  | .eachElement _ element => lists element + 1
  | _ => 0

/-- The conversion of what is in the innermost of the lists. -/
def innermost : Conversion → Conversion
  | .eachElement _ element => innermost element
  | c => c

namespace Java

variable {c : Conversion} {depth d d' : Nat} {e converted : Expr} {scope : List String} {x : String}
  {f : Function}

/-! ## Names -/

theorem append_toString_inj {s : String} : s ++ toString d = s ++ toString d' ↔ d = d' := by
  refine ⟨fun h => ?_, congrArg (s ++ toString ·)⟩
  have hchars := congrArg String.toList h
  rw [String.toList_append, String.toList_append, List.append_cancel_left_eq] at hchars
  have hnumber := congrArg (Nat.ofDigitChars 10 · 0) hchars
  simpa [Nat.toString_eq_ofList_toDigits] using hnumber

@[simp] theorem item_inj : item d = item d' ↔ d = d' := append_toString_inj

@[simp] theorem caught_inj : caught d = caught d' ↔ d = d' := append_toString_inj

@[simp] theorem item_ne_caught (d d' : Nat) : item d ≠ caught d' := by
  intro h
  have hchars := congrArg String.toList h
  simp [item, caught] at hchars

@[simp] theorem item_ne_s (d : Nat) : item d ≠ "s" := by
  intro h
  have hchars := congrArg String.toList h
  simp [item] at hchars

@[simp] theorem caught_ne_s (d : Nat) : caught d ≠ "s" := by
  intro h
  have hchars := congrArg String.toList h
  simp [caught] at hchars

/-! ## The functions that are written -/

/-- The variables for the elements of the lists around, the outermost first. -/
def items (depth : Nat) : List String := (List.range depth).map item

/-- The function for the elements of a list inside `depth` lists. -/
def listFunction (depth : Nat) : Function where
  scope := items depth
  parameter := item depth
  caught := [caught depth, caught depth]
  inputs := [item depth]

/-- The function for a character inside `depth` lists. -/
def characterFunction (depth : Nat) : Function where
  scope := items depth
  parameter := "s"
  caught := []
  inputs := ["s", "s"]

/-- The functions of a conversion: one for each list, from the outside in, and one for a character. -/
def functionsOf (c : Conversion) : List Function :=
  (List.range c.lists).map listFunction ++
    if c.innermost = .parsePrimitive .char then [characterFunction c.lists] else []

theorem items_succ (depth : Nat) : items (depth + 1) = items depth ++ [item depth] := by
  rw [items, List.range_succ, List.map_append]
  rfl

theorem mem_items : x ∈ items depth ↔ ∃ d < depth, item d = x := by
  simp only [items, List.mem_map, List.mem_range]

/-! ## The value -/

theorem written_parseExpr (kind : Primitive) : (parseExpr e kind).written = e.written := by
  cases kind <;> exact Nat.zero_add _

theorem evaluated_parseExpr (kind : Primitive) : (parseExpr e kind).evaluated = e.evaluated := by
  cases kind <;> exact Nat.zero_add _

theorem written_elementBody : (elementBody depth converted).written = converted.written := rfl

theorem written_exprAt (c : Conversion) : (exprAt depth e c).written = e.written := by
  induction c generalizing depth e with
  | identity => rfl
  | parsePrimitive kind => exact written_parseExpr kind
  | valueOf target => exact Nat.zero_add _
  | fromString target => exact Nat.zero_add _
  | construct target => rfl
  | eachElement type element ih =>
    have hitem : (exprAt (depth + 1) (.var (item depth)) element).written = 0 := ih
    simp only [exprAt, Expr.written, written_elementBody, hitem, Nat.add_zero]

/-- The elements are converted in a function, so only the value itself is evaluated. -/
theorem evaluated_exprAt (c : Conversion) : (exprAt depth e c).evaluated = e.evaluated := by
  cases c with
  | identity => rfl
  | parsePrimitive kind => exact evaluated_parseExpr kind
  | valueOf target => exact Nat.zero_add _
  | fromString target => exact Nat.zero_add _
  | construct target => rfl
  | eachElement type element => rfl

/-! ## Variables that are used -/

theorem free_parseExpr (kind : Primitive) : (parseExpr e kind).free = e.free := by
  cases kind <;> rfl

/-- The handlers use no variable but their own. -/
theorem free_elementBody : (elementBody depth converted).free = converted.free := by
  simp [elementBody, Body.free, Expr.free]

theorem free_exprAt (c : Conversion) : (exprAt depth e c).free = e.free := by
  induction c generalizing depth e with
  | identity => rfl
  | parsePrimitive kind => exact free_parseExpr kind
  | valueOf target => rfl
  | fromString target => rfl
  | construct target => rfl
  | eachElement type element ih =>
    have hitem : (exprAt (depth + 1) (.var (item depth)) element).free = [item depth] := ih
    simp [exprAt, Expr.free, free_elementBody, hitem]

/-! ## Functions -/

theorem functions_elementBody :
    (elementBody depth converted).functions scope = converted.functions scope := by
  simp only [elementBody, Body.functions, Expr.functions, List.append_nil]

theorem functions_parseExpr (kind : Primitive) (he : e.functions (items depth) = []) :
    (parseExpr e kind).functions (items depth) =
      if kind = .char then [characterFunction depth] else [] := by
  cases kind
  case char => simp only [parseExpr, Expr.functions, he]; rfl
  all_goals exact he

/-- **The functions of a conversion inside `depth` lists**: one for each list that is converted, and one
for a character. -/
theorem functions_exprAt (c : Conversion) (he : e.functions (items depth) = []) :
    (exprAt depth e c).functions (items depth) =
      (List.range' depth c.lists).map listFunction ++
        if c.innermost = .parsePrimitive .char then [characterFunction (depth + c.lists)] else [] := by
  induction c generalizing depth e with
  | identity => exact he
  | parsePrimitive kind =>
    rw [exprAt, functions_parseExpr kind he]
    simp [lists, innermost]
  | valueOf target => exact he
  | fromString target => exact he
  | construct target => exact he
  | eachElement type element ih =>
    -- where the elements are converted, the variables of one more list are in scope
    have helement : (exprAt (depth + 1) (.var (item depth)) element).functions
        (items depth ++ [item depth]) = (List.range' (depth + 1) element.lists).map listFunction ++
          if element.innermost = .parsePrimitive .char then
            [characterFunction (depth + 1 + element.lists)] else [] := by
      rw [← items_succ]
      exact ih rfl
    simp only [exprAt, Expr.functions, he, functions_elementBody, free_elementBody, free_exprAt,
      helement, List.append_nil, List.nil_append]
    rw [lists, List.range'_succ, List.map_cons, List.cons_append, Nat.add_right_comm, Nat.add_assoc]
    rfl

theorem functions_expr (c : Conversion) : (expr c).functions [] = functionsOf c := by
  have h : (exprAt 0 .value c).functions (items 0) = _ := functions_exprAt c rfl
  rwa [Nat.zero_add, ← List.range_eq_range'] at h

/-! ## Hygiene -/

theorem mem_functionsOf (hf : f ∈ functionsOf c) :
    (∃ d, f = listFunction d) ∨ f = characterFunction c.lists := by
  rcases List.mem_append.1 hf with hlist | hchar
  · obtain ⟨d, -, rfl⟩ := List.mem_map.1 hlist
    exact .inl ⟨d, rfl⟩
  · split at hchar
    · exact .inr (List.mem_singleton.1 hchar)
    · exact absurd hchar List.not_mem_nil

theorem mem_binds_listFunction : x ∈ (listFunction d).binds ↔ x = item d ∨ x = caught d := by
  simp [Function.binds, listFunction]

theorem disjoint_listFunction (h : d ≠ d') :
    (listFunction d).binds.Disjoint (listFunction d').binds := by
  intro x hx hx'
  rw [mem_binds_listFunction] at hx hx'
  rcases hx with rfl | rfl
  · rcases hx' with hitem | hcaught
    · exact h (item_inj.1 hitem)
    · exact item_ne_caught d d' hcaught
  · rcases hx' with hitem | hcaught
    · exact item_ne_caught d' d hitem.symm
    · exact h (caught_inj.1 hcaught)

theorem disjoint_characterFunction :
    (listFunction d).binds.Disjoint (characterFunction depth).binds := by
  intro x hx hx'
  have hs : x = "s" := List.mem_singleton.1 hx'
  rcases mem_binds_listFunction.1 hx with rfl | rfl
  · exact item_ne_s d hs
  · exact caught_ne_s d hs

theorem pairwise_functionsOf (c : Conversion) :
    (functionsOf c).Pairwise fun f g => f.binds.Disjoint g.binds := by
  refine List.pairwise_append.2 ⟨?_, ?_, ?_⟩
  · exact List.pairwise_map.2 (List.nodup_range.imp disjoint_listFunction)
  · split
    · exact List.pairwise_singleton _ _
    · exact .nil
  · intro f hf g hg
    obtain ⟨d, -, rfl⟩ := List.mem_map.1 hf
    split at hg
    · rw [List.mem_singleton.1 hg]
      exact disjoint_characterFunction
    · exact absurd hg List.not_mem_nil

/-- What a function binds is new where it stands, and its handlers leave the parameter alone. -/
structure Function.Fresh (f : Function) : Prop where
  parameter_notMem_caught : f.parameter ∉ f.caught
  notMem_scope : ∀ x ∈ f.binds, x ∉ f.scope

theorem fresh_listFunction (d : Nat) : (listFunction d).Fresh where
  parameter_notMem_caught := by simp [listFunction]
  notMem_scope := by
    intro x hx hscope
    obtain ⟨d', hlt, rfl⟩ := mem_items.1 hscope
    rcases mem_binds_listFunction.1 hx with hitem | hcaught
    · exact Nat.ne_of_lt hlt (item_inj.1 hitem)
    · exact item_ne_caught d' d hcaught

theorem fresh_characterFunction (depth : Nat) : (characterFunction depth).Fresh where
  parameter_notMem_caught := List.not_mem_nil
  notMem_scope := by
    intro x hx hscope
    obtain ⟨d', -, rfl⟩ := mem_items.1 hscope
    exact item_ne_s d' (List.mem_singleton.1 hx)

/-- No variable of the expression is taken for another one, and its value is used once.

The value is evaluated when the expression is and written nowhere else, so it stands in no function.
All variables are bound; no two functions bind one variable; a function binds none that is bound where
it stands; and it uses none but its own parameter and what its own handlers bind. -/
structure Expr.Hygienic (e : Expr) : Prop where
  written : e.written = 1
  evaluated : e.evaluated = 1
  closed : e.free = []
  disjoint : (e.functions []).Pairwise fun f g => f.binds.Disjoint g.binds
  fresh : ∀ f ∈ e.functions [], f.Fresh
  own : ∀ f ∈ e.functions [], ∀ x ∈ f.inputs, x = f.parameter

theorem hygienic_expr (c : Conversion) : (expr c).Hygienic where
  written := written_exprAt c
  evaluated := evaluated_exprAt c
  closed := free_exprAt c
  disjoint := by
    rw [functions_expr]
    exact pairwise_functionsOf c
  fresh := by
    intro f hf
    rw [functions_expr] at hf
    rcases mem_functionsOf hf with ⟨d, rfl⟩ | rfl
    · exact fresh_listFunction d
    · exact fresh_characterFunction c.lists
  own := by
    intro f hf x hx
    rw [functions_expr] at hf
    rcases mem_functionsOf hf with ⟨d, rfl⟩ | rfl
    · exact List.mem_singleton.1 hx
    · simpa [characterFunction] using hx

/-- **Rendering is hygienic.** Whatever the value, the same texts are written before and behind it: the
text of one expression, which evaluates the value once and takes no variable for another one. The
function for the list inside `d` lists is the `d`-th of its functions. Its variables are `item d` and
`caught d`, and of the variables from outside of its body it uses `item d` only. -/
theorem render_hygienic (c : Conversion) :
    (∃ before after, ∀ v, render c v = before ++ v ++ after) ∧
      (∀ v, render c v = (expr c).text v) ∧ (expr c).Hygienic ∧
      (expr c).functions [] = functionsOf c ∧
      ∀ d < c.lists, ∃ f, ((expr c).functions [])[d]? = some f ∧ f.scope = items d ∧
        (∀ x, x ∈ f.binds ↔ x = item d ∨ x = caught d) ∧ f.inputs = [item d] := by
  have htext : ∀ v, render c v = (expr c).text v := by
    intro v
    rw [expr, text_exprAt]
    rfl
  refine ⟨?_, htext, hygienic_expr c, functions_expr c, ?_⟩
  · obtain ⟨before, after, h⟩ := (expr c).composed.exists_eq.2 (written_exprAt c)
    exact ⟨before, after, fun v => (htext v).trans (h v)⟩
  · intro d hd
    refine ⟨listFunction d, ?_, rfl, fun x => mem_binds_listFunction, rfl⟩
    have hlt : d < ((List.range c.lists).map listFunction).length := by simpa using hd
    rw [functions_expr, functionsOf, List.getElem?_append_left hlt]
    simp [hd]

/-- Characters in lists of lists. -/
example :
    ((expr (.eachElement .string (.eachElement .string (.parsePrimitive .char)))).functions []).map
      Function.binds = [["e0", "x0", "x0"], ["e1", "x1", "x1"], ["s"]] := by
  decide

end Java

end Wiring.Conversion
