import Wiring.Proofs.Walk.Retyped

/-!
# Wrapped requests

A class is often asked for in a wrapper that delivers it: `Optional`, `Provider` or `Lazy`. A walk
looks through one wrapper, so it makes no difference whether a class is asked for in one or in none.
It does not look through a second one: nothing is asked for by what is in two wrappers.
-/

namespace Wiring

open List (Forall₂)

namespace TypeRef

variable {name : String} {names : List String} {t u : TypeRef}

/-- The classes that deliver a value of their only type argument. -/
def wrapperNames : List String := optionalName :: (providerNames ++ lazyNames)

/-- Whether a reference is one of these classes around a type. -/
def isWrapper (t : TypeRef) : Bool := (t.singleArgOf? wrapperNames).isSome

/-- A type in so many wrappers. -/
inductive Wrapped (t : TypeRef) : Nat → TypeRef → Prop
  | bare : Wrapped t 0 t
  | wrapper {n : Nat} {u : TypeRef} {name : String} (h : Wrapped t n u)
    (hname : name ∈ wrapperNames) : Wrapped t (n + 1) (declared name [u])

/-- A type in any number of wrappers. -/
def InWrappers (t u : TypeRef) : Prop := ∃ n, Wrapped t n u

/-- A type as it is or, unless it is a wrapper itself, in one. -/
def InOneWrapper (t u : TypeRef) : Prop := u = t ∨ t.isWrapper = false ∧ Wrapped t 1 u

theorem singleArgOf?_eq_some_iff :
    t.singleArgOf? names = some u ↔ ∃ name ∈ names, t = declared name [u] := by
  unfold singleArgOf?
  split
  · next name arg =>
    constructor
    · intro h
      split at h
      · next hname =>
        cases h
        exact ⟨name, hname, rfl⟩
      · cases h
    · rintro ⟨_, hname, ⟨⟩⟩
      exact if_pos hname
  · next hno =>
    refine ⟨nofun, ?_⟩
    rintro ⟨name, _, rfl⟩
    exact absurd rfl (hno name u)

/-- A wrapper provides what is inside. -/
theorem provided_wrapper (hname : name ∈ wrapperNames) (t : TypeRef) :
    (declared name [t]).provided = t := by
  simp only [wrapperNames, providerNames, lazyNames, List.cons_append, List.nil_append,
    List.mem_cons, List.not_mem_nil, or_false] at hname
  rcases hname with rfl | rfl | rfl | rfl <;> rfl

/-- Anything but a wrapper provides itself. -/
theorem provided_of_not_isWrapper (h : t.isWrapper = false) : t.provided = t := by
  have hnone : ∀ names ⊆ wrapperNames, t.singleArgOf? names = none := by
    intro names hnames
    rw [Option.eq_none_iff_forall_not_mem]
    intro u hu
    obtain ⟨name, hname, ht⟩ := singleArgOf?_eq_some_iff.1 hu
    have hsome := singleArgOf?_eq_some_iff.2 ⟨name, hnames hname, ht⟩
    rw [isWrapper, hsome] at h
    cases h
  unfold provided ProvisionStyle.classify
  rw [hnone [optionalName] (by simp [wrapperNames]), hnone providerNames (by simp [wrapperNames]),
    hnone lazyNames (by simp [wrapperNames])]
  split <;> rfl

theorem providesSame_of_inOneWrapper (h : InOneWrapper t u) : ProvidesSame t u := by
  rcases h with rfl | ⟨ht, h⟩
  · rfl
  · cases h with
    | wrapper h hname =>
      cases h
      exact (provided_of_not_isWrapper ht).trans (provided_wrapper hname t).symm

end TypeRef

namespace Model

open TypeRef (InWrappers InOneWrapper Wrapped wrapperNames)

/-- What is in two wrappers is not looked for; the inner wrapper is. -/
theorem requested?_of_wrapped {m : Model} (hnone : ∀ name ∈ wrapperNames, m.get? name = none)
    {t u : TypeRef} {n : Nat} (h : Wrapped t (n + 2) u) : m.requested? u = none := by
  cases h with
  | wrapper h hname =>
    cases h with
    | @wrapper _ v inner h hinner =>
      rw [requested?, TypeRef.provided_wrapper hname]
      exact hnone inner hinner

/-- **A walk sees through one wrapper, and through no second one.** -/
theorem begun_walk_eq_in_one_wrapper (m : Model) :
    (∀ m', m.Retyped InOneWrapper m' → ∀ root, (m.walk root).begun = (m'.walk root).begun) ∧
      ((∀ name ∈ wrapperNames, m.get? name = none) →
        ∀ t n u, Wrapped t (n + 2) u → m.requested? u = none) :=
  ⟨fun _ h root => h.begun_walk_eq (fun _ _ => TypeRef.providesSame_of_inOneWrapper) root,
    fun hnone _ _ _ h => requested?_of_wrapped hnone h⟩

/-! ## A class in wrappers

A component asks for a server, the constructor of the server for a client, and a field of the client
for the configuration. -/

def requestModel (server client config : TypeRef) : Model where
  types :=
    [ { name := "app.App", kind := .component
        methods := [{ name := "server", returns := server }] },
      { name := "app.Client", fields := [{ name := "config", type := config, inject := true }] },
      { name := "app.Config", fields := [{ name := "host", type := .string, inject := true }] },
      { name := "app.Server"
        constructors :=
          [{ name := "<init>", inject := true
             parameters := [{ name := "client", type := client }] }] } ]
  ascending := by
    have hnames : ["app.App", "app.Client", "app.Config", "app.Server"].Pairwise
        fun a b => compare a b = .lt := by decide
    simpa [Ascending.IsAscending, TypeDecl.compareName] using hnames

def plainModel : Model :=
  requestModel (.declared "app.Server" []) (.declared "app.Client" []) (.declared "app.Config" [])

/-- Each class in a wrapper of its own. -/
def wrappedModel : Model :=
  requestModel (.declared "dagger.Lazy" [.declared "app.Server" []])
    (.declared "jakarta.inject.Provider" [.declared "app.Client" []])
    (.declared "java.util.Optional" [.declared "app.Config" []])

/-- The configuration in two wrappers. -/
def nestedModel : Model :=
  requestModel (.declared "app.Server" []) (.declared "app.Client" [])
    (.declared "javax.inject.Provider" [.declared "dagger.Lazy" [.declared "app.Config" []]])

theorem retyped_requestModel {R : TypeRef → TypeRef → Prop} (hrefl : ∀ t, R t t)
    {server server' client client' config config' : TypeRef} (hserver : R server server')
    (hvoid : server'.isVoid = server.isVoid) (hclient : R client client')
    (hconfig : R config config') :
    (requestModel server client config).Retyped R (requestModel server' client' config') := by
  refine .cons ⟨_, _, _, .nil, .cons ⟨_, hserver, hvoid, rfl⟩ .nil, .nil, rfl⟩ ?_
  refine .cons ⟨_, _, _, .nil, .nil, .cons ⟨_, hconfig, rfl⟩ .nil, rfl⟩ ?_
  refine .cons ⟨_, _, _, .nil, .nil, .cons ⟨_, hrefl _, rfl⟩ .nil, rfl⟩ ?_
  exact .cons ⟨_, _, _, .cons ⟨_, .cons ⟨_, hclient, rfl⟩ .nil, rfl⟩ .nil, .nil, .nil, rfl⟩ .nil

/-- In two wrappers a class is not seen. -/
theorem hidden_in_two_wrappers :
    (∀ name ∈ wrapperNames, plainModel.get? name = none) ∧
      plainModel.Retyped InWrappers nestedModel ∧
      (plainModel.walk "app.App").begun =
        [ (.component, "app.App"), (.class, "app.Server"), (.class, "app.Client"),
          (.class, "app.Config") ] ∧
      (nestedModel.walk "app.App").begun =
        [(.component, "app.App"), (.class, "app.Server"), (.class, "app.Client")] := by
  refine ⟨by decide, ?_, by cbv, by cbv⟩
  refine retyped_requestModel (fun _ => ⟨0, .bare⟩) ⟨0, .bare⟩ rfl ⟨0, .bare⟩ ⟨2, ?_⟩
  exact .wrapper (.wrapper .bare (by decide)) (by decide)

theorem seen_in_one_wrapper :
    plainModel.Retyped InOneWrapper wrappedModel ∧
      (plainModel.walk "app.App").begun = (wrappedModel.walk "app.App").begun ∧
      (wrappedModel.walk "app.App").begun =
        [ (.component, "app.App"), (.class, "app.Server"), (.class, "app.Client"),
          (.class, "app.Config") ] ∧
      (∀ name ∈ wrapperNames, plainModel.get? name = none) ∧
      plainModel.requested?
        (.declared "javax.inject.Provider" [.declared "dagger.Lazy" [.declared "app.Config" []]]) =
          none := by
  have hwrapped : plainModel.Retyped InOneWrapper wrappedModel :=
    retyped_requestModel (fun _ => .inl rfl) (.inr ⟨rfl, .wrapper .bare (by decide)⟩) rfl
      (.inr ⟨rfl, .wrapper .bare (by decide)⟩) (.inr ⟨rfl, .wrapper .bare (by decide)⟩)
  have hnone : ∀ name ∈ wrapperNames, plainModel.get? name = none := by decide
  refine ⟨hwrapped, (begun_walk_eq_in_one_wrapper plainModel).1 _ hwrapped "app.App",
    by cbv, hnone, ?_⟩
  exact (begun_walk_eq_in_one_wrapper plainModel).2 hnone _ 0 _
    (.wrapper (.wrapper .bare (by decide)) (by decide))

end Model

end Wiring
