import Wiring.Model.Builtin
import Wiring.Proofs.Conversion.Standard

/-!
# Chains that are extended

Strategies that are added to the standard chain are asked after it, but the list strategy asks the
whole chain about elements, so that an added strategy is heard there before the standard chain is
through with the list. This changes nothing about lists whose elements the standard chain converts,
as it is through with these before it comes to the added strategies.
-/

namespace Wiring.Conversion

variable {m : Model} {target source : TypeRef} {c : Conversion}

/-- A strategy that may ask the chain about any types, and not only about a target that is smaller. -/
abbrev Custom :=
  Model → (target source : TypeRef) → (resolve : TypeRef → TypeRef → Option Conversion) →
    Option Conversion

/-- A strategy of a chain asks it about smaller targets. -/
def Strategy.custom (s : Strategy) : Custom := fun m target source resolve =>
  s.convert m target source fun t _ source => resolve t source

variable {added : List Custom} {resolve : TypeRef → TypeRef → Option Conversion}

/-- What the standard chain computes with some strategies behind it, if they come to an end whatever
they are asked: the first answer of a standard strategy, or else of an added one, where all of them
have from `resolve` what they ask of the chain. -/
def Extends (m : Model) (added : List Custom) (resolve : TypeRef → TypeRef → Option Conversion) :
    Prop :=
  ∀ target source, resolve target source =
    (Chain.standard.answer m resolve target source).or
      (added.findSome? fun s => s m target source resolve)

theorem foldl_append (chain added : Chain) : added.foldl Chain.append chain = chain ++ added := by
  induction added generalizing chain with
  | nil => simp
  | cons s added ih => simp [ih, Chain.append]

/-- Chains that are made from the standard one extend it. -/
theorem extends_foldl_append (m : Model) (added : Chain) :
    Extends m (added.map Strategy.custom) ((added.foldl Chain.append .standard).resolve m) := by
  intro target source
  rw [Chain.resolve_eq_answer, foldl_append, Chain.answer_append, List.findSome?_map]
  rfl

theorem Extends.resolve_of_answer (h : Extends m added resolve)
    (hc : Chain.standard.answer m resolve target source = some c) :
    resolve target source = some c := by
  rw [h, hc, Option.some_or]

/-- **What the standard chain converts is converted alike.** The induction goes from the elements to
the list: they are converted alike, so the list strategy has the same answer for the list. -/
theorem Extends.of_converts (h : Extends m added resolve) (hc : Converts m target source c) :
    resolve target source = some c := by
  induction hc with
  | same t => exact h.resolve_of_answer (answer_standard_eq_some_iff.2 (.inl ⟨rfl, rfl⟩))
  | scalar hne hscalar =>
    exact h.resolve_of_answer (answer_standard_eq_some_iff.2 (.inr (.inl ⟨hne, rfl, hscalar⟩)))
  | elements hne hwildcard hprimitive _ ih =>
    exact h.resolve_of_answer (answer_standard_eq_some_iff.2
      (.inr (.inr ⟨_, _, _, rfl, rfl, hne, hwildcard, hprimitive, ih, rfl⟩)))

/-- What else is converted: what an added strategy answers, and lists whose elements are converted
so. -/
theorem Extends.cases (h : Extends m added resolve) (hc : resolve target source = some c) :
    Converts m target source c ∨
      (added.findSome? fun s => s m target source resolve) = some c ∨
      ∃ t s c', target = .listOf t ∧ source = .listOf s ∧ t ≠ s ∧ t.isWildcard = false ∧
        t.isPrimitive = false ∧ resolve t s = some c' ∧ c = .eachElement t c' := by
  rw [h, Option.or_eq_some_iff, answer_standard_eq_some_iff] at hc
  rcases hc with (⟨rfl, rfl⟩ | ⟨hne, rfl, hscalar⟩ | hlist) | ⟨-, hadded⟩
  · exact .inl (.same _)
  · exact .inl (.scalar hne hscalar)
  · exact .inr (.inr hlist)
  · exact .inr (.inl hadded)

theorem resolve_eq_none_iff :
    Chain.standard.resolve m target source = none ↔ ∀ c, ¬Converts m target source c := by
  simp only [Option.eq_none_iff_forall_ne_some, ne_eq, resolve_eq_some_iff_converts]

/-- How an extended chain stands to the standard one. -/
structure Conservative (m : Model) (added : List Custom)
    (resolve : TypeRef → TypeRef → Option Conversion) : Prop where
  /-- What the standard chain resolves is resolved alike. -/
  kept : ∀ target source c, Chain.standard.resolve m target source = some c →
    resolve target source = some c
  /-- Of what the standard chain leaves unresolved, that is resolved which an added strategy answers,
  and lists whose elements were unresolved as well. -/
  gained : ∀ target source c, Chain.standard.resolve m target source = none →
    resolve target source = some c →
      (added.findSome? fun s => s m target source resolve) = some c ∨
        ∃ t s c', target = .listOf t ∧ source = .listOf s ∧ Chain.standard.resolve m t s = none ∧
          resolve t s = some c' ∧ c = .eachElement t c'
  /-- These lists are resolved whatever an added strategy answers about them. -/
  lists : ∀ t s c, t.isWildcard = false → t.isPrimitive = false →
    Chain.standard.resolve m t s = none → resolve t s = some c →
      Chain.standard.resolve m (.listOf t) (.listOf s) = none ∧
        resolve (.listOf t) (.listOf s) = some (.eachElement t c)

theorem Extends.conservative (h : Extends m added resolve) : Conservative m added resolve where
  kept target source c hc := h.of_converts (resolve_eq_some_iff_converts.1 hc)
  gained target source c hnone hc := by
    rw [resolve_eq_none_iff] at hnone
    rcases h.cases hc with hconverts | hadded |
      ⟨t, s, c', rfl, rfl, hne, hwildcard, hprimitive, hc', rfl⟩
    · exact absurd hconverts (hnone c)
    · exact .inl hadded
    · refine .inr ⟨t, s, c', rfl, rfl, resolve_eq_none_iff.2 fun c hconverts => ?_, hc', rfl⟩
      exact hnone _ (.elements hne hwildcard hprimitive hconverts)
  lists t s c hwildcard hprimitive hnone hc := by
    rw [resolve_eq_none_iff] at hnone
    have hne : t ≠ s := by
      rintro rfl
      exact hnone _ (.same t)
    constructor
    · rw [resolve_eq_none_iff]
      intro c hconverts
      rcases hconverts.of_listOf with ⟨hlist, -⟩ | ⟨t', c', hlist, -, -, -, hconverts, -⟩
      · exact hne (TypeRef.listOf_injective hlist)
      · rw [← TypeRef.listOf_injective hlist] at hconverts
        exact hnone c' hconverts
    · exact h.resolve_of_answer (answer_standard_eq_some_iff.2
        (.inr (.inr ⟨t, s, c, rfl, rfl, hne, hwildcard, hprimitive, hc, rfl⟩)))

/-! ## One more strategy -/

/-- Has an answer to one question only. -/
def Strategy.only (target source : TypeRef) (c : Conversion) : Strategy where
  name := "only"
  convert _ t s _ := if t = target ∧ s = source then some c else none

theorem sizeOf_lt_listOf (t : TypeRef) : sizeOf t < sizeOf (TypeRef.listOf t) :=
  Strategy.sizeOf_lt_sizeOf_declared _ t

/-- Smaller targets than that of the question are resolved as before. -/
theorem converts_of_resolve_append_only {t s : TypeRef} {c' : Conversion}
    (hsmaller : sizeOf t < sizeOf target)
    (h : (Chain.standard.append (.only target source c)).resolve m t s = some c') :
    Converts m t s c' := by
  have hextends := extends_foldl_append m [.only target source c]
  induction hn : sizeOf t using Nat.strongRecOn generalizing t s c' with
  | ind n ih =>
    rcases hextends.cases h with hconverts | hadded |
      ⟨u, v, c'', rfl, rfl, hne, hwildcard, hprimitive, hc, rfl⟩
    · exact hconverts
    · have hother : t ≠ target := by
        rintro rfl
        omega
      simp [Strategy.custom, Strategy.only, hother] at hadded
    · have hu := sizeOf_lt_listOf u
      exact .elements hne hwildcard hprimitive (ih (sizeOf u) (by omega) (by omega) hc rfl)

/-- **Whatever is unresolved can be resolved at will** by one more strategy. -/
theorem exists_append_resolve_eq (hnone : Chain.standard.resolve m target source = none)
    (c : Conversion) : ∃ s, (Chain.standard.append s).resolve m target source = some c := by
  refine ⟨.only target source c, ?_⟩
  have hextends := extends_foldl_append m [.only target source c]
  rw [resolve_eq_none_iff] at hnone
  cases hc : (Chain.standard.append (.only target source c)).resolve m target source with
  | none =>
    have hanswer := hextends target source
    rw [List.foldl_cons, List.foldl_nil, hc, eq_comm, Option.or_eq_none_iff] at hanswer
    simp [Strategy.custom, Strategy.only] at hanswer
  | some c' =>
    rcases hextends.cases hc with hconverts | hadded |
      ⟨t, s, c'', rfl, rfl, hne, hwildcard, hprimitive, hc'', -⟩
    · exact absurd hconverts (hnone c')
    · simpa [Strategy.custom, Strategy.only, eq_comm] using hadded
    · have hconverts := converts_of_resolve_append_only (sizeOf_lt_listOf t) hc''
      exact absurd (Converts.elements hne hwildcard hprimitive hconverts) (hnone _)

/-- **Chains are extended conservatively**, both those that are made from the standard one and those
with strategies that ask about any types. What the standard chain resolves stays as it is, and
nothing else does for certain. -/
theorem conservative_of_extends (m : Model) :
    (∀ added : Chain, Conservative m (added.map Strategy.custom)
      ((added.foldl Chain.append .standard).resolve m)) ∧
    (∀ added resolve, Extends m added resolve → Conservative m added resolve) ∧
    ∀ target source, Chain.standard.resolve m target source = none →
      ∀ c, ∃ s, (Chain.standard.append s).resolve m target source = some c :=
  ⟨fun added => (extends_foldl_append m added).conservative, fun _ _ h => h.conservative,
    fun _ _ hnone c => exists_append_resolve_eq hnone c⟩

/-- Offers a constructor of everything but arrays. -/
def Strategy.exampleFallback : Strategy where
  name := "fallback"
  convert _ target _ _ :=
    match target with
    | .array _ => none
    | _ => some (.construct target)

theorem conservative_example :
    Extends .builtin [Strategy.exampleFallback.custom]
        ((Chain.standard.append .exampleFallback).resolve .builtin) ∧
      Chain.standard.resolve .builtin (.declared "java.lang.Long" []) .string =
        some (.valueOf (.declared "java.lang.Long" [])) ∧
      (Chain.standard.append .exampleFallback).resolve .builtin (.declared "java.lang.Long" [])
        .string = some (.valueOf (.declared "java.lang.Long" [])) ∧
      Chain.standard.resolve .builtin (.declared "app.Opaque" []) .string = none ∧
      (Chain.standard.append .exampleFallback).resolve .builtin
        (.listOf (.declared "app.Opaque" [])) (.listOf .string) =
          some (.eachElement (.declared "app.Opaque" [])
            (.construct (.declared "app.Opaque" []))) := by
  have hextends := extends_foldl_append .builtin [.exampleFallback]
  have hconservative := (conservative_of_extends .builtin).2.1 _ _ hextends
  have hlong : Chain.standard.resolve .builtin (.declared "java.lang.Long" []) .string =
      some (.valueOf (.declared "java.lang.Long" [])) := by decide +kernel
  have hopaque : Chain.standard.resolve .builtin (.declared "app.Opaque" []) .string = none := by
    decide +kernel
  exact ⟨hextends, hlong, hconservative.kept _ _ _ hlong, hopaque,
    (hconservative.lists _ _ _ rfl rfl hopaque (by decide +kernel)).2⟩

end Wiring.Conversion
