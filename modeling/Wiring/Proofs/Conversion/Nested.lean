import Wiring.Model.Builtin
import Wiring.Proofs.Conversion.Standard

/-!
# Conversions of nested lists

The rules of the standard chain unrolled. Since elements that are equal to their source make equal
lists, doing nothing is not among the conversions of elements, and what is left at the bottom is the
conversion of a string.
-/

namespace Wiring.Conversion

variable {m : Model} {target source : TypeRef} {c : Conversion}

/-- Lists of `t`, nested `n` deep. -/
def listsOf : Nat → TypeRef → TypeRef
  | 0, t => t
  | n + 1, t => .listOf (listsOf n t)

/-- The conversion `c` to `t` of the innermost elements of lists, nested `n` deep. Each list records
the type of its elements. -/
def eachOf : Nat → TypeRef → Conversion → Conversion
  | 0, _, c => c
  | n + 1, t, c => .eachElement (listsOf n t) (eachOf n t c)

/-- A conversion of elements, or of elements of elements and so on. -/
inductive Under (inner : Conversion) : Conversion → Prop
  | element (t : TypeRef) : Under inner (.eachElement t inner)
  | deeper (t : TypeRef) {c : Conversion} (h : Under inner c) : Under inner (.eachElement t c)

/-- The innermost elements are strings, and a type of their own to be converted to. -/
structure Innermost (m : Model) (n : Nat) (t : TypeRef) (c : Conversion) : Prop where
  ne_string : t ≠ .string
  not_wildcard : t.isWildcard = false
  not_primitive : n = 0 ∨ t.isPrimitive = false
  scalar : Scalar m t c

theorem Converts.exists_innermost (h : Converts m target source c) :
    target = source ∧ c = .identity ∨
      ∃ n t c', target = listsOf n t ∧ source = listsOf n .string ∧ Innermost m n t c' ∧
        c = eachOf n t c' := by
  induction h with
  | same t => exact .inl ⟨rfl, rfl⟩
  | @scalar t c hne h =>
    exact .inr ⟨0, t, c, rfl, rfl, ⟨hne, h.isWildcard_eq_false, .inl rfl, h⟩, rfl⟩
  | elements hne hwildcard hprimitive _ ih =>
    rcases ih with ⟨rfl, -⟩ | ⟨n, t, c', rfl, rfl, h, rfl⟩
    · exact absurd rfl hne
    · have hprimitive' : t.isPrimitive = false := by
        rcases h.not_primitive with rfl | h
        · exact hprimitive
        · exact h
      exact .inr ⟨n + 1, t, c', rfl, rfl, ⟨h.ne_string, h.not_wildcard, .inr hprimitive', h.scalar⟩,
        rfl⟩

theorem listsOf_ne {t : TypeRef} (h : t ≠ .string) (n : Nat) : listsOf n t ≠ listsOf n .string := by
  induction n with
  | zero => exact h
  | succ n ih => exact fun heq => ih (TypeRef.listOf_injective heq)

/-- Lists are converted from the innermost elements outwards. -/
theorem Innermost.converts {n : Nat} {t : TypeRef} (h : Innermost m n t c) :
    Converts m (listsOf n t) (listsOf n .string) (eachOf n t c) := by
  induction n with
  | zero => exact .scalar h.ne_string h.scalar
  | succ n ih =>
    have hprimitive : t.isPrimitive = false := h.not_primitive.resolve_left (Nat.succ_ne_zero n)
    have hconverts := ih { h with not_primitive := .inr hprimitive }
    cases n with
    | zero => exact .elements h.ne_string h.not_wildcard hprimitive hconverts
    | succ n => exact .elements (listsOf_ne h.ne_string _) rfl rfl hconverts

/-! ## What does not occur -/

theorem Converts.eq_of_identity (h : Converts m target source .identity) : target = source := by
  cases h with
  | same => rfl
  | scalar _ h => cases h

theorem Scalar.not_under {inner : Conversion} (h : Scalar m target c) : ¬Under inner c := by
  intro hunder
  cases h <;> cases hunder

/-- Elements for which nothing is to be done are in a list for which nothing is to be done. -/
theorem Converts.not_under_identity (h : Converts m target source c) : ¬Under .identity c := by
  induction h with
  | same t => nofun
  | scalar _ h => exact h.not_under
  | elements hne _ _ h ih =>
    intro hunder
    cases hunder with
    | element => exact hne h.eq_of_identity
    | deeper _ hunder => exact ih hunder

/-- **What the standard chain converts**, and how: a type to itself, and strings inside equally
nested lists to a type that has a conversion of its own, unless that is a wildcard or, inside lists,
a primitive. So the elements of a list are never left as they are, and a list of strings is
converted neither to the list type without an argument nor to lists of a wildcard. -/
theorem resolve_standard_eq_some_iff (m : Model) (target source : TypeRef) :
    (∀ c, Chain.standard.resolve m target source = some c ↔
      target = source ∧ c = .identity ∨
        ∃ n t c', target = listsOf n t ∧ source = listsOf n .string ∧ Innermost m n t c' ∧
          c = eachOf n t c') ∧
    (∀ c, Chain.standard.resolve m target source = some c → ¬Under .identity c) ∧
    Chain.standard.resolve m (.declared TypeRef.listName []) (.listOf .string) = none ∧
    ∀ t, t.isWildcard = true →
      Chain.standard.resolve m (.listOf t) (.listOf .string) = none := by
  refine ⟨fun c => ⟨fun h => ?_, ?_⟩, fun c h => ?_, ?_, fun t ht => ?_⟩
  · exact (resolve_eq_some_iff_converts.1 h).exists_innermost
  · rw [resolve_eq_some_iff_converts]
    rintro (⟨rfl, rfl⟩ | ⟨n, t, c', rfl, rfl, h, rfl⟩)
    · exact .same _
    · exact h.converts
  · exact (resolve_eq_some_iff_converts.1 h).not_under_identity
  · rw [Option.eq_none_iff_forall_ne_some]
    intro c h
    rcases (resolve_eq_some_iff_converts.1 h).of_listOf with ⟨hlist, -⟩ | ⟨t, _, hlist, -⟩ <;>
      simp [TypeRef.listOf] at hlist
  · rw [Option.eq_none_iff_forall_ne_some]
    intro c h
    rcases (resolve_eq_some_iff_converts.1 h).of_listOf with ⟨hlist, -⟩ | ⟨s, _, hlist, -, hs, -⟩
    · rw [TypeRef.listOf_injective hlist] at ht
      cases ht
    · rw [TypeRef.listOf_injective hlist, hs] at ht
      cases ht

/-- Numbers in lists of lists are read by `valueOf`; the elements of a wildcard list are not read. -/
theorem resolve_standard_nested :
    Chain.standard.resolve .builtin
        (.listOf (.listOf (.declared "java.lang.Long" [])))
        (.listOf (.listOf .string)) =
      some (.eachElement (.listOf (.declared "java.lang.Long" []))
        (.eachElement (.declared "java.lang.Long" [])
          (.valueOf (.declared "java.lang.Long" [])))) ∧
      TypeRef.wildcard.isWildcard = true ∧
      Chain.standard.resolve .builtin (.listOf .wildcard) (.listOf .string) = none := by
  have hd : Model.builtin.get? "java.lang.Long" = some (boxedType .long) := by decide +kernel
  have hscalar : Scalar .builtin (.declared "java.lang.Long" []) (.valueOf _) :=
    .valueOf (by decide) hd (TypeDecl.hasStringFactory_iff.1 (by decide +kernel))
  have hinnermost : Innermost .builtin 2 (.declared "java.lang.Long" []) (.valueOf _) :=
    ⟨by decide, rfl, .inr rfl, hscalar⟩
  obtain ⟨hconverted, -, -, hwildcard⟩ := resolve_standard_eq_some_iff .builtin
    (.listOf (.listOf (.declared "java.lang.Long" []))) (.listOf (.listOf .string))
  exact ⟨(hconverted _).2 (.inr ⟨2, .declared "java.lang.Long" [], _, rfl, rfl, hinnermost, rfl⟩),
    rfl, hwildcard .wildcard rfl⟩

end Wiring.Conversion
