import Wiring.Conversion.Basic

/-!
# What the standard chain converts

The standard chain told by rules, apart from the order in which it asks its strategies. A type is
converted to itself. A string is converted to another type by what that type offers. Lists are
converted if their elements are and the elements are no wildcards or primitives. Unrolled, these
rules say that equally nested lists around a string are converted to lists around a type to which a
string is converted.
-/

namespace Wiring

/-! ## What a type offers -/

/-- The only parameter is a `java.lang.String`. -/
def Method.TakesString (m : Method) : Prop := ∃ p, m.parameters = [p] ∧ p.type = .string

theorem Method.takesString_iff {m : Method} : m.takesString = true ↔ m.TakesString := by
  unfold takesString TakesString
  split
  · next p hp => simp [hp, TypeRef.isString]
  · next hno =>
    simp only [Bool.false_eq_true, false_iff, not_exists, not_and]
    intro p hp
    exact absurd hp (hno p)

namespace TypeDecl

/-- Values of the type are made from a string by its public static method `name`. An enum has such
a `valueOf` without declaring it. -/
def OffersFactory (d : TypeDecl) (name : String) : Prop :=
  d.kind = .enum ∧ name = "valueOf" ∨
    ∃ f ∈ d.methods, f.name = name ∧ f.isStatic = true ∧ f.visibility = .public ∧ f.TakesString ∧
      f.returns.erasure? = some d.name

/-- Values of the type are made from a string by a public constructor. -/
def OffersConstructor (d : TypeDecl) : Prop :=
  d.isAbstract = false ∧ ∃ c ∈ d.constructors, c.visibility = .public ∧ c.TakesString

theorem hasStringFactory_iff {d : TypeDecl} {name : String} :
    d.hasStringFactory name = true ↔ d.OffersFactory name := by
  simp [hasStringFactory, OffersFactory, Method.isStringFactory, Method.isPublic,
    Method.takesString_iff, TypeRef.isNamed, and_assoc]

theorem hasStringConstructor_iff {d : TypeDecl} :
    d.hasStringConstructor = true ↔ d.OffersConstructor := by
  simp [hasStringConstructor, OffersConstructor, Method.isPublic, Method.takesString_iff]

end TypeDecl

theorem TypeRef.listOf_injective {t s : TypeRef} (h : TypeRef.listOf t = .listOf s) : t = s := by
  injection h with _ hargs
  injection hargs

theorem TypeRef.listOf_ne_string (t : TypeRef) : TypeRef.listOf t ≠ .string := by
  simp [TypeRef.listOf, TypeRef.string]

namespace Conversion

variable {m : Model} {target source element : TypeRef} {c : Conversion}

/-- The conversion of a string to a type by what the type offers, the first of these: to be parsed as
a primitive, as the box of a character is as well; and, if the type is declared and has no type
arguments, a method `valueOf`, a method `fromString`, a constructor. -/
inductive Scalar (m : Model) : TypeRef → Conversion → Prop
  | primitive (kind : Primitive) : Scalar m (.primitive kind) (.parsePrimitive kind)
  | character (args : List TypeRef) :
    Scalar m (.declared Primitive.char.boxedName args) (.parsePrimitive .char)
  | valueOf {name : String} {d : TypeDecl} (hname : name ≠ Primitive.char.boxedName)
    (hd : m.get? name = some d) (h : d.OffersFactory "valueOf") :
    Scalar m (.declared name []) (.valueOf (.declared name []))
  | fromString {name : String} {d : TypeDecl} (hname : name ≠ Primitive.char.boxedName)
    (hd : m.get? name = some d) (hvalueOf : ¬d.OffersFactory "valueOf")
    (h : d.OffersFactory "fromString") :
    Scalar m (.declared name []) (.fromString (.declared name []))
  | construct {name : String} {d : TypeDecl} (hname : name ≠ Primitive.char.boxedName)
    (hd : m.get? name = some d) (hvalueOf : ¬d.OffersFactory "valueOf")
    (hfromString : ¬d.OffersFactory "fromString") (h : d.OffersConstructor) :
    Scalar m (.declared name []) (.construct (.declared name []))

theorem Scalar.isWildcard_eq_false (h : Scalar m target c) : target.isWildcard = false := by
  cases h <;> rfl

/-- What the standard chain converts, and how. -/
inductive Converts (m : Model) : TypeRef → TypeRef → Conversion → Prop
  | same (t : TypeRef) : Converts m t t .identity
  | scalar {t : TypeRef} {c : Conversion} (hne : t ≠ .string) (h : Scalar m t c) :
    Converts m t .string c
  | elements {t s : TypeRef} {c : Conversion} (hne : t ≠ s) (hwildcard : t.isWildcard = false)
    (hprimitive : t.isPrimitive = false) (h : Converts m t s c) :
    Converts m (.listOf t) (.listOf s) (.eachElement t c)

/-- A list is converted to itself, or to a list by converting its elements. -/
theorem Converts.of_listOf {s : TypeRef} (h : Converts m target (.listOf s) c) :
    target = .listOf s ∧ c = .identity ∨
      ∃ t c', target = .listOf t ∧ t ≠ s ∧ t.isWildcard = false ∧ t.isPrimitive = false ∧
        Converts m t s c' ∧ c = .eachElement t c' := by
  generalize hs : TypeRef.listOf s = source at h
  cases h with
  | same => exact .inl ⟨rfl, rfl⟩
  | scalar => exact absurd hs (TypeRef.listOf_ne_string s)
  | @elements t _ c hne hwildcard hprimitive h =>
    obtain rfl := TypeRef.listOf_injective hs
    exact .inr ⟨t, c, rfl, hne, hwildcard, hprimitive, h, rfl⟩

/-! ## The answers of a chain -/

/-- The first answer of the strategies, where `resolve` answers what they ask of the chain. -/
def Chain.answer (chain : Chain) (m : Model) (resolve : TypeRef → TypeRef → Option Conversion)
    (target source : TypeRef) : Option Conversion :=
  chain.findSome? fun s => s.convert m target source fun t _ source => resolve t source

variable {resolve : TypeRef → TypeRef → Option Conversion}

/-- A chain answers what its strategies ask of it. -/
theorem Chain.resolve_eq_answer (chain : Chain) (m : Model) (target source : TypeRef) :
    chain.resolve m target source = chain.answer m (chain.resolve m) target source := by
  rw [resolve, answer]

theorem Chain.answer_append (first second : Chain) :
    Chain.answer (first ++ second) m resolve target source =
      (first.answer m resolve target source).or (second.answer m resolve target source) := by
  simp only [answer, List.findSome?_append]

theorem answer_identity :
    Chain.answer [.identity] m resolve target source =
      if target = source then some .identity else none := by
  by_cases h : target = source <;> simp [Chain.answer, Strategy.identity, h]

/-! ### Members -/

/-- The strategies that use a member of the target. -/
def Chain.members : Chain := [.valueOf, .fromString, .constructor]

/-- The conversion of a string by the first member that the type offers. -/
def member? (d : TypeDecl) (target : TypeRef) : Option Conversion :=
  if d.hasStringFactory "valueOf" then some (.valueOf target)
  else if d.hasStringFactory "fromString" then some (.fromString target)
  else if d.hasStringConstructor then some (.construct target)
  else none

theorem answer_members :
    Chain.members.answer m resolve target source =
      (Strategy.scalarTarget? m target source).bind (member? · target) := by
  unfold Chain.answer Chain.members
  cases hd : Strategy.scalarTarget? m target source with
  | none => simp [Strategy.valueOf, Strategy.fromString, Strategy.factory, Strategy.constructor, hd]
  | some d =>
    by_cases hvalueOf : d.hasStringFactory "valueOf" = true
    · simp [Strategy.valueOf, Strategy.factory, hd, member?, hvalueOf]
    · by_cases hfromString : d.hasStringFactory "fromString" = true
      · simp [Strategy.valueOf, Strategy.fromString, Strategy.factory, hd, member?, hvalueOf,
          hfromString]
      · simp [Strategy.valueOf, Strategy.fromString, Strategy.factory, Strategy.constructor, hd,
          member?, hvalueOf, hfromString]

/-- A member is that of a declared class without type arguments, and it takes a string. -/
theorem scalarTarget?_eq_some_iff {d : TypeDecl} :
    Strategy.scalarTarget? m target source = some d ↔
      source = .string ∧ ∃ name, target = .declared name [] ∧ m.get? name = some d := by
  unfold Strategy.scalarTarget?
  cases target <;>
    simp [TypeRef.isString, TypeRef.args, Model.resolve?, TypeRef.erasure?, and_assoc]

theorem member?_eq_some_iff {d : TypeDecl} :
    member? d target = some c ↔
      d.OffersFactory "valueOf" ∧ c = .valueOf target ∨
      ¬d.OffersFactory "valueOf" ∧
        (d.OffersFactory "fromString" ∧ c = .fromString target ∨
          ¬d.OffersFactory "fromString" ∧ d.OffersConstructor ∧ c = .construct target) := by
  simp only [← TypeDecl.hasStringFactory_iff, ← TypeDecl.hasStringConstructor_iff]
  unfold member?
  by_cases hvalueOf : d.hasStringFactory "valueOf" = true
  · simp [hvalueOf, eq_comm (a := c)]
  · by_cases hfromString : d.hasStringFactory "fromString" = true
    · simp [hvalueOf, hfromString, eq_comm (a := c)]
    · simp [hvalueOf, hfromString, eq_comm (a := c)]

/-! ### Strings -/

/-- The strategies that convert a string. -/
def Chain.scalars : Chain := [.primitive] ++ Chain.members

theorem answer_primitive_eq_some_iff :
    Chain.answer [.primitive] m resolve target .string = some c ↔
      (∃ kind, target = .primitive kind ∧ c = .parsePrimitive kind) ∨
        ∃ args, target = .declared Primitive.char.boxedName args ∧ c = .parsePrimitive .char := by
  have hstring : TypeRef.string.isString = true := by decide
  unfold Chain.answer
  cases target <;>
    simp [Strategy.primitive, hstring, TypeRef.isNamed, TypeRef.erasure?, eq_comm (a := c)]

theorem answer_scalars_of_ne_string (h : source ≠ .string) :
    Chain.scalars.answer m resolve target source = none := by
  have hno : source.isString = false := by simpa [TypeRef.isString] using h
  have hmembers : Chain.members.answer m resolve target source = none := by
    simp [answer_members, Strategy.scalarTarget?, hno]
  have hprimitive : Chain.answer [.primitive] m resolve target source = none := by
    simp [Chain.answer, Strategy.primitive, hno]
  rw [Chain.scalars, Chain.answer_append, hprimitive, hmembers, Option.none_or]

/-- **A string is converted by what the type offers.** -/
theorem answer_scalars_eq_some_iff :
    Chain.scalars.answer m resolve target .string = some c ↔ Scalar m target c := by
  rw [Chain.scalars, Chain.answer_append, answer_members, Option.or_eq_some_iff,
    answer_primitive_eq_some_iff]
  constructor
  · rintro ((⟨kind, rfl, rfl⟩ | ⟨args, rfl, rfl⟩) | ⟨hnone, hmember⟩)
    · exact .primitive kind
    · exact .character args
    · obtain ⟨d, htarget, hc⟩ := Option.bind_eq_some_iff.1 hmember
      obtain ⟨-, name, rfl, hd⟩ := scalarTarget?_eq_some_iff.1 htarget
      have hname : name ≠ Primitive.char.boxedName := by
        rintro rfl
        rw [(answer_primitive_eq_some_iff (c := .parsePrimitive .char)).2 (.inr ⟨[], rfl, rfl⟩)]
          at hnone
        cases hnone
      rcases member?_eq_some_iff.1 hc with
        ⟨h, rfl⟩ | ⟨hvalueOf, ⟨h, rfl⟩ | ⟨hfromString, h, rfl⟩⟩
      · exact .valueOf hname hd h
      · exact .fromString hname hd hvalueOf h
      · exact .construct hname hd hvalueOf hfromString h
  · -- the class that boxes a character aside, a declared class is no primitive
    have hdeclared {name : String} {d : TypeDecl} {c : Conversion}
        (hname : name ≠ Primitive.char.boxedName) (hd : m.get? name = some d)
        (hc : member? d (.declared name []) = some c) :
        Chain.answer [.primitive] m resolve (.declared name []) .string = none ∧
          (Strategy.scalarTarget? m (.declared name []) .string).bind
            (member? · (.declared name [])) = some c := by
      constructor
      · rw [Option.eq_none_iff_forall_ne_some]
        intro c' hc'
        rcases answer_primitive_eq_some_iff.1 hc' with ⟨kind, hkind, -⟩ | ⟨args, hargs, -⟩
        · cases hkind
        · exact hname (by injection hargs)
      · rw [scalarTarget?_eq_some_iff.2 ⟨rfl, name, rfl, hd⟩, Option.bind_some, hc]
    intro h
    cases h with
    | primitive kind => exact .inl (.inl ⟨kind, rfl, rfl⟩)
    | character args => exact .inl (.inr ⟨args, rfl, rfl⟩)
    | valueOf hname hd h =>
      exact .inr (hdeclared hname hd (member?_eq_some_iff.2 (.inl ⟨h, rfl⟩)))
    | fromString hname hd hvalueOf h =>
      exact .inr (hdeclared hname hd (member?_eq_some_iff.2 (.inr ⟨hvalueOf, .inl ⟨h, rfl⟩⟩)))
    | construct hname hd hvalueOf hfromString h =>
      exact .inr (hdeclared hname hd
        (member?_eq_some_iff.2 (.inr ⟨hvalueOf, .inr ⟨hfromString, h, rfl⟩⟩)))

/-! ### Lists -/

theorem elementOf?_eq_some_iff {e : { e : TypeRef // sizeOf e < sizeOf target }} :
    Strategy.elementOf? target = some e ↔ target = .listOf e.1 := by
  obtain ⟨e, he⟩ := e
  unfold Strategy.elementOf?
  split
  · next name element =>
    by_cases hname : name = TypeRef.listName <;> simp [TypeRef.listOf, hname]
  · next hno =>
    simp only [reduceCtorEq, false_iff]
    rintro rfl
    exact hno _ _ rfl

theorem answer_list_eq_some_iff :
    Chain.answer [.list] m resolve target source = some c ↔
      ∃ t s c', target = .listOf t ∧ source = .listOf s ∧ t.isWildcard = false ∧
        t.isPrimitive = false ∧ resolve t s = some c' ∧ c = .eachElement t c' := by
  rw [Chain.answer, List.findSome?_singleton]
  constructor
  · intro h
    obtain ⟨⟨t, hsmaller⟩, ht, h⟩ := Option.bind_eq_some_iff.1 h
    obtain ⟨⟨s, _⟩, hs, h⟩ := Option.bind_eq_some_iff.1 h
    dsimp only at h
    split at h
    · cases h
    · next hconcrete =>
      obtain ⟨c', hc', rfl⟩ := Option.map_eq_some_iff.1 h
      simp only [Bool.or_eq_true, not_or, Bool.not_eq_true] at hconcrete
      exact ⟨t, s, c', elementOf?_eq_some_iff.1 ht, elementOf?_eq_some_iff.1 hs, hconcrete.1,
        hconcrete.2, hc', rfl⟩
  · rintro ⟨t, s, c', rfl, rfl, hwildcard, hprimitive, hc, rfl⟩
    simp [Strategy.list, Strategy.elementOf?, TypeRef.listOf, hwildcard, hprimitive, hc]

/-! ## The standard chain -/

/-- **What the standard chain answers**, whatever is answered about elements. No case is open to
more than one strategy but that of a type and itself. -/
theorem answer_standard_eq_some_iff :
    Chain.standard.answer m resolve target source = some c ↔
      target = source ∧ c = .identity ∨
      target ≠ .string ∧ source = .string ∧ Scalar m target c ∨
      ∃ t s c', target = .listOf t ∧ source = .listOf s ∧ t ≠ s ∧ t.isWildcard = false ∧
        t.isPrimitive = false ∧ resolve t s = some c' ∧ c = .eachElement t c' := by
  have hparts : Chain.standard.answer m resolve target source =
      (Chain.answer [.identity] m resolve target source).or
        ((Chain.scalars.answer m resolve target source).or
          (Chain.answer [.list] m resolve target source)) := by
    rw [← Chain.answer_append, ← Chain.answer_append]
    rfl
  rw [hparts, answer_identity]
  by_cases hsame : target = source
  · subst hsame
    rw [if_pos rfl, Option.some_or, Option.some.injEq]
    constructor
    · rintro rfl
      exact .inl ⟨rfl, rfl⟩
    · rintro (⟨-, rfl⟩ | ⟨hne, hstring, -⟩ | ⟨t, s, c', rfl, hs, hne, -⟩)
      · rfl
      · exact absurd hstring hne
      · exact absurd (TypeRef.listOf_injective hs) hne
  rw [if_neg hsame, Option.none_or]
  by_cases hstring : source = .string
  · subst hstring
    have hlist : Chain.answer [.list] m resolve target .string = none := by
      rw [Option.eq_none_iff_forall_ne_some]
      intro c hc
      obtain ⟨t, s, c', -, hs, -⟩ := answer_list_eq_some_iff.1 hc
      exact TypeRef.listOf_ne_string s hs.symm
    rw [hlist, Option.or_none, answer_scalars_eq_some_iff]
    constructor
    · exact fun h => .inr (.inl ⟨hsame, rfl, h⟩)
    · rintro (⟨h, -⟩ | ⟨-, -, h⟩ | ⟨t, s, c', -, hs, -⟩)
      · exact absurd h hsame
      · exact h
      · exact absurd hs.symm (TypeRef.listOf_ne_string s)
  · rw [answer_scalars_of_ne_string hstring, Option.none_or, answer_list_eq_some_iff]
    constructor
    · rintro ⟨t, s, c', rfl, rfl, h⟩
      exact .inr (.inr ⟨t, s, c', rfl, rfl, fun heq => hsame (congrArg _ heq), h⟩)
    · rintro (⟨h, -⟩ | ⟨-, h, -⟩ | ⟨t, s, c', ht, hs, -, h⟩)
      · exact absurd h hsame
      · exact absurd h hstring
      · exact ⟨t, s, c', ht, hs, h⟩

/-- **The standard chain resolves what the rules convert.** -/
theorem resolve_eq_some_iff_converts :
    Chain.standard.resolve m target source = some c ↔ Converts m target source c := by
  constructor
  · intro h
    induction hn : sizeOf target using Nat.strongRecOn generalizing target source c with
    | ind n ih =>
      rw [Chain.resolve_eq_answer, answer_standard_eq_some_iff] at h
      rcases h with ⟨rfl, rfl⟩ | ⟨hne, rfl, h⟩ |
        ⟨t, s, c', rfl, rfl, hne, hwildcard, hprimitive, h, rfl⟩
      · exact .same _
      · exact .scalar hne h
      · have hsmaller : sizeOf t < n := hn ▸ Strategy.sizeOf_lt_sizeOf_declared _ t
        exact .elements hne hwildcard hprimitive (ih _ hsmaller h rfl)
  · intro h
    induction h with
    | same t =>
      rw [Chain.resolve_eq_answer, answer_standard_eq_some_iff]
      exact .inl ⟨rfl, rfl⟩
    | scalar hne h =>
      rw [Chain.resolve_eq_answer, answer_standard_eq_some_iff]
      exact .inr (.inl ⟨hne, rfl, h⟩)
    | elements hne hwildcard hprimitive _ ih =>
      rw [Chain.resolve_eq_answer, answer_standard_eq_some_iff]
      exact .inr (.inr ⟨_, _, _, rfl, rfl, hne, hwildcard, hprimitive, ih, rfl⟩)

end Conversion

end Wiring
