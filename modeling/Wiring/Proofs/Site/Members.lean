import Wiring.Proofs.Site.Element
import Wiring.Proofs.Walk.Declared

/-!
# The elements of modules and classes

Where the members of each type can be told apart, a module has each of its elements once, for it
leaves out the provides methods that nearer ones override. A class leaves nothing out: it has the
elements of an injected method once more with each superclass that declares the method as well, and
likewise those of a field.
-/

namespace Wiring

theorem disjoint_flatMap_iff {α β γ : Type} {as : List α} {bs : List β} {f : α → List γ}
    {g : β → List γ} :
    (as.flatMap f).Disjoint (bs.flatMap g) ↔ ∀ a ∈ as, ∀ b ∈ bs, (f a).Disjoint (g b) := by
  constructor
  · intro h a ha b hb x hx hx'
    exact h (List.mem_flatMap.2 ⟨a, ha, hx⟩) (List.mem_flatMap.2 ⟨b, hb, hx'⟩)
  · intro h x hx hx'
    obtain ⟨a, ha, hx⟩ := List.mem_flatMap.1 hx
    obtain ⟨b, hb, hx'⟩ := List.mem_flatMap.1 hx'
    exact h a ha b hb hx hx'

/-- No injected method with parameters has the signature of one of the other type. -/
def TypeDecl.SharesNoMethod (near far : TypeDecl) : Prop :=
  ∀ x ∈ near.injectMethods, ∀ y ∈ far.injectMethods, x.signature = y.signature → x.parameters = []

/-- No injected field has the name of one of the other type. -/
def TypeDecl.SharesNoField (near far : TypeDecl) : Prop :=
  ∀ f ∈ near.injectFields, ∀ f' ∈ far.injectFields, f.name ≠ f'.name

namespace Model

open TypeDecl (SharesNoMethod SharesNoField)

/-- The members of each type can be told apart, and constructors are named unlike methods. -/
structure MembersDistinct (m : Model) : Prop where
  fields : ∀ d ∈ m.types, (d.fields.map (·.name)).Nodup
  methods : ∀ d ∈ m.types, (d.methods.map (·.overrideKey)).Nodup
  constructors : ∀ d ∈ m.types, (d.constructors.map fun c => c.parameters.map (·.type)).Nodup
  constructor_name : ∀ d ∈ m.types, ∀ c ∈ d.constructors, ∀ d' ∈ m.types, ∀ x ∈ d'.methods,
    c.name ≠ x.name
  parameters : ∀ d ∈ m.types, ∀ x ∈ d.constructors ++ d.methods, (x.parameters.map (·.name)).Nodup

/-- The names of types and members are names. -/
structure IsLegible (m : Model) : Prop where
  types : ∀ d ∈ m.types, '(' ∉ d.name.toList
  methods : ∀ d ∈ m.types, ∀ x ∈ d.constructors ++ d.methods, x.IsLegible
  fields : ∀ d ∈ m.types, ∀ f ∈ d.fields, '.' ∉ f.name.toList

variable {m : Model} {a b d : TypeDecl}

/-! ## Members -/

theorem MembersDistinct.eq_of_overrideKey_eq (hm : m.MembersDistinct) (hd : d ∈ m.types)
    {x y : Method} (hx : x ∈ d.methods) (hy : y ∈ d.methods) (h : x.overrideKey = y.overrideKey) :
    x = y :=
  List.inj_on_of_nodup_map (hm.methods d hd) hx hy h

theorem MembersDistinct.nodup_methods (hm : m.MembersDistinct) (hd : d ∈ m.types) :
    d.methods.Nodup :=
  .of_map _ (hm.methods d hd)

/-- Distinct methods of a type do not share an element. -/
theorem disjoint_ofParameters_of_ne (hm : m.MembersDistinct) (hl : m.IsLegible) (hd : d ∈ m.types)
    {x y : Method} (hx : x ∈ d.methods) (hy : y ∈ d.methods) (hne : x ≠ y) (owner : String) :
    (Element.ofParameters owner x).Disjoint (Element.ofParameters owner y) := by
  have hlx := hl.methods d hd x (List.mem_append_right _ hx)
  have hly := hl.methods d hd y (List.mem_append_right _ hy)
  refine (Element.disjoint_ofParameters_iff hlx hly).2 fun _ hsignature => ?_
  exact absurd (hm.eq_of_overrideKey_eq hd hx hy (Method.eq_of_signature_eq hlx hly hsignature).1) hne

/-! ## Modules -/

/-- The elements of the provides methods of a module. -/
def moduleElements (m : Model) (d : TypeDecl) : List Element :=
  (m.providesMethods d).flatMap fun x => Element.ofParameters x.1.name x.2

theorem IsLegible.of_mem_providesMethods (hl : m.IsLegible) {x : TypeDecl × Method}
    (h : x ∈ m.providesMethods a) : x.2.IsLegible := by
  obtain ⟨hdeclaring, hmethod⟩ := mem_of_mem_providesMethods h
  exact hl.methods _ (mem_types_of_get? hdeclaring) _ (List.mem_append_right _ hmethod)

/-- A module has each element once: of methods that override each other, one is left. -/
theorem nodup_moduleElements (hm : m.MembersDistinct) (hl : m.IsLegible) (a : TypeDecl) :
    (m.moduleElements a).Nodup := by
  refine List.nodup_flatMap.2 ⟨fun x hx => ?_, ?_⟩
  · obtain ⟨hdeclaring, hmethod⟩ := mem_of_mem_providesMethods hx
    exact Element.nodup_ofParameters
      (hm.parameters _ (mem_types_of_get? hdeclaring) _ (List.mem_append_right _ hmethod))
  · refine (pairwise_firstPerKey _ _).imp_of_mem fun {x y} hx hy hkey => ?_
    have hlx := hl.of_mem_providesMethods hx
    have hly := hl.of_mem_providesMethods hy
    refine (Element.disjoint_ofParameters_iff hlx hly).2 fun _ hsignature => ?_
    exact absurd (Method.eq_of_signature_eq hlx hly hsignature).1 hkey

/-- Two modules share the elements of the provides methods that they share. -/
theorem disjoint_moduleElements_iff (hm : m.MembersDistinct) (hl : m.IsLegible) :
    (m.moduleElements a).Disjoint (m.moduleElements b) ↔
      ∀ x ∈ m.providesMethods a, x ∈ m.providesMethods b → x.2.parameters = [] := by
  rw [moduleElements, moduleElements, disjoint_flatMap_iff]
  constructor
  · intro h x hx hx'
    have hlx := hl.of_mem_providesMethods hx
    exact (Element.disjoint_ofParameters_iff hlx hlx).1 (h x hx x hx') rfl rfl
  · intro h x hx y hy
    have hlx := hl.of_mem_providesMethods hx
    have hly := hl.of_mem_providesMethods hy
    refine (Element.disjoint_ofParameters_iff hlx hly).2 fun hname hsignature => ?_
    obtain ⟨hdeclaring, hmethod⟩ := mem_of_mem_providesMethods hx
    obtain ⟨hdeclaring', hmethod'⟩ := mem_of_mem_providesMethods hy
    -- one signature in one type is one method
    have htype : x.1 = y.1 := eq_of_name_eq hdeclaring hdeclaring' hname
    have hsame : x.2 = y.2 := hm.eq_of_overrideKey_eq (mem_types_of_get? hdeclaring) hmethod
      (htype ▸ hmethod') (Method.eq_of_signature_eq hlx hly hsignature).1
    exact h x hx (Prod.ext htype hsame ▸ hy)

/-! ## Classes -/

/-- The elements of the injected members of a class. -/
def classElements (m : Model) (d : TypeDecl) : List Element :=
  d.injectConstructors.flatMap (fun x => Element.ofParameters d.name x) ++
    (m.lineage d.name).flatMap fun declaring =>
      declaring.injectMethods.flatMap (fun x => Element.ofParameters d.name x) ++
        declaring.injectFields.map fun f => .field d.name f.name

def fieldElements (m : Model) (d : TypeDecl) : List Element :=
  (m.lineage d.name).flatMap fun declaring =>
    declaring.injectFields.map fun f => .field d.name f.name

def methodElements (m : Model) (d : TypeDecl) : List Element :=
  (m.lineage d.name).flatMap fun declaring =>
    declaring.injectMethods.flatMap fun x => Element.ofParameters d.name x

def constructorElements (d : TypeDecl) : List Element :=
  d.injectConstructors.flatMap fun x => Element.ofParameters d.name x

theorem perm_classElements (m : Model) (d : TypeDecl) :
    (constructorElements d ++ (m.methodElements d ++ m.fieldElements d)).Perm (m.classElements d) :=
  (List.flatMap_append_perm _ _ _).append_left _

theorem IsLegible.of_mem_lineage (hl : m.IsLegible) {declaring : TypeDecl} {x : Method}
    (hdeclaring : declaring ∈ m.lineage d.name) (hx : x ∈ declaring.injectMethods) : x.IsLegible :=
  hl.methods _ (mem_types_of_get? (get?_of_mem_lineage hdeclaring)) _
    (List.mem_append_right _ (List.mem_filter.1 hx).1)

theorem nodup_constructorElements (hm : m.MembersDistinct) (hl : m.IsLegible) (hd : d ∈ m.types) :
    (constructorElements d).Nodup := by
  have hmem : ∀ c ∈ d.injectConstructors, c ∈ d.constructors ++ d.methods :=
    fun c hc => List.mem_append_left _ (List.mem_filter.1 hc).1
  refine List.nodup_flatMap.2 ⟨fun c hc => ?_, ?_⟩
  · exact Element.nodup_ofParameters (hm.parameters d hd c (hmem c hc))
  · have hkeys := (List.pairwise_map.1 (hm.constructors d hd)).sublist
      (List.filter_sublist (p := (·.inject)))
    refine hkeys.imp_of_mem fun {x y} hx hy hkey => ?_
    have hlx := hl.methods d hd x (hmem x hx)
    have hly := hl.methods d hd y (hmem y hy)
    refine (Element.disjoint_ofParameters_iff hlx hly).2 fun _ hsignature => ?_
    exact absurd (congrArg Prod.snd (Method.eq_of_signature_eq hlx hly hsignature).1) hkey

theorem nodup_methodElements_iff (hm : m.MembersDistinct) (hl : m.IsLegible) :
    (m.methodElements d).Nodup ↔ (m.lineage d.name).Pairwise SharesNoMethod := by
  have hone : ∀ declaring ∈ m.lineage d.name,
      (declaring.injectMethods.flatMap fun x => Element.ofParameters d.name x).Nodup := by
    intro declaring hdeclaring
    have htypes := mem_types_of_get? (get?_of_mem_lineage hdeclaring)
    refine List.nodup_flatMap.2 ⟨fun x hx => ?_, ?_⟩
    · exact Element.nodup_ofParameters
        (hm.parameters _ htypes x (List.mem_append_right _ (List.mem_filter.1 hx).1))
    · refine ((hm.nodup_methods htypes).sublist List.filter_sublist).imp_of_mem fun hx hy hne => ?_
      exact disjoint_ofParameters_of_ne hm hl htypes (List.mem_filter.1 hx).1
        (List.mem_filter.1 hy).1 hne d.name
  rw [methodElements, List.nodup_flatMap, and_iff_right hone]
  refine List.Pairwise.iff_of_mem fun {near far} hnear hfar => ?_
  rw [Function.onFun, disjoint_flatMap_iff]
  refine forall₂_congr fun x hx => forall₂_congr fun y hy => ?_
  rw [Element.disjoint_ofParameters_iff (hl.of_mem_lineage hnear hx) (hl.of_mem_lineage hfar hy)]
  exact forall_prop_of_true rfl

theorem nodup_fieldElements_iff (hm : m.MembersDistinct) :
    (m.fieldElements d).Nodup ↔ (m.lineage d.name).Pairwise SharesNoField := by
  have hone : ∀ declaring ∈ m.lineage d.name,
      (declaring.injectFields.map fun f => Element.field d.name f.name).Nodup := by
    intro declaring hdeclaring
    have hnames := hm.fields _ (mem_types_of_get? (get?_of_mem_lineage hdeclaring))
    refine List.Nodup.map_on (fun f hf f' hf' heq => ?_)
      ((List.Nodup.of_map _ hnames).sublist List.filter_sublist)
    injection heq with _ hname
    exact List.inj_on_of_nodup_map hnames (List.mem_filter.1 hf).1 (List.mem_filter.1 hf').1 hname
  rw [fieldElements, List.nodup_flatMap, and_iff_right hone]
  refine List.Pairwise.iff_of_mem fun {near far} _ _ => ?_
  constructor
  · intro h f hf f' hf' hname
    refine h (List.mem_map_of_mem hf) (List.mem_map.2 ⟨f', hf', ?_⟩)
    rw [hname]
  · intro h e he he'
    obtain ⟨f, hf, rfl⟩ := List.mem_map.1 he
    obtain ⟨f', hf', heq⟩ := List.mem_map.1 he'
    injection heq with _ hname
    exact h f hf f' hf' hname.symm

theorem not_mem_fieldElements {owner : String} {x : Method} {e : Element}
    (h : e ∈ Element.ofParameters owner x) : e ∉ m.fieldElements d := by
  obtain ⟨p, _, rfl⟩ := List.mem_map.1 h
  intro hmem
  obtain ⟨declaring, _, he⟩ := List.mem_flatMap.1 hmem
  obtain ⟨f, _, heq⟩ := List.mem_map.1 he
  cases heq

/-- A constructor shares no element with a method, for it has a name of its own. -/
theorem disjoint_constructorElements (hm : m.MembersDistinct) (hl : m.IsLegible)
    (hd : d ∈ m.types) : (constructorElements d).Disjoint (m.methodElements d) := by
  refine disjoint_flatMap_iff.2 fun c hc declaring hdeclaring => ?_
  intro e he hmem
  obtain ⟨x, hx, he'⟩ := List.mem_flatMap.1 hmem
  have hconstructor := (List.mem_filter.1 hc).1
  have hlc := hl.methods d hd c (List.mem_append_left _ hconstructor)
  have hname : c.name ≠ x.name :=
    hm.constructor_name d hd c hconstructor _ (mem_types_of_get? (get?_of_mem_lineage hdeclaring)) x
      (List.mem_filter.1 hx).1
  refine (Element.disjoint_ofParameters_iff hlc (hl.of_mem_lineage hdeclaring hx)).2 ?_ he he'
  intro _ hsignature
  have hkey := (Method.eq_of_signature_eq hlc (hl.of_mem_lineage hdeclaring hx) hsignature).1
  exact absurd (congrArg Prod.fst hkey) hname

/-- A class has each element once if no type of its lineage shares a member with another one. -/
theorem nodup_classElements_iff (hm : m.MembersDistinct) (hl : m.IsLegible) (hd : d ∈ m.types) :
    (m.classElements d).Nodup ↔
      (m.lineage d.name).Pairwise SharesNoMethod ∧ (m.lineage d.name).Pairwise SharesNoField := by
  have hmethods : (m.methodElements d).Disjoint (m.fieldElements d) := by
    intro e he
    obtain ⟨declaring, _, he⟩ := List.mem_flatMap.1 he
    obtain ⟨x, _, he⟩ := List.mem_flatMap.1 he
    exact not_mem_fieldElements he
  have hconstructors : (constructorElements d).Disjoint (m.methodElements d ++ m.fieldElements d) := by
    refine List.disjoint_append_right.2 ⟨disjoint_constructorElements hm hl hd, ?_⟩
    intro e he
    obtain ⟨c, _, he⟩ := List.mem_flatMap.1 he
    exact not_mem_fieldElements he
  rw [← (perm_classElements m d).nodup_iff, List.nodup_append', List.nodup_append',
    nodup_methodElements_iff hm hl, nodup_fieldElements_iff hm, and_iff_left hconstructors,
    and_iff_left hmethods, and_iff_right (nodup_constructorElements hm hl hd)]

theorem mem_classElements_iff {e : Element} :
    e ∈ m.classElements d ↔
      e ∈ constructorElements d ∨ e ∈ m.methodElements d ∨ e ∈ m.fieldElements d := by
  rw [← (perm_classElements m d).mem_iff, List.mem_append, List.mem_append]

/-- The elements of a class are at its own constructors, or at members of its lineage. -/
theorem cases_of_mem_classElements {e : Element} (h : e ∈ m.classElements d) :
    (∃ x : Method, (x ∈ d.injectConstructors ∨
        ∃ declaring ∈ m.lineage d.name, x ∈ declaring.injectMethods) ∧
      e ∈ Element.ofParameters d.name x) ∨
    ∃ declaring ∈ m.lineage d.name, ∃ f ∈ declaring.injectFields, e = .field d.name f.name := by
  rcases mem_classElements_iff.1 h with h | h | h
  · obtain ⟨c, hc, he⟩ := List.mem_flatMap.1 h
    exact .inl ⟨c, .inl hc, he⟩
  · obtain ⟨declaring, hdeclaring, h⟩ := List.mem_flatMap.1 h
    obtain ⟨x, hx, he⟩ := List.mem_flatMap.1 h
    exact .inl ⟨x, .inr ⟨declaring, hdeclaring, hx⟩, he⟩
  · obtain ⟨declaring, hdeclaring, h⟩ := List.mem_flatMap.1 h
    obtain ⟨f, hf, rfl⟩ := List.mem_map.1 h
    exact .inr ⟨declaring, hdeclaring, f, hf, rfl⟩

theorem owner_of_mem_classElements {e : Element} (h : e ∈ m.classElements d) : e.owner = d.name := by
  rcases cases_of_mem_classElements h with ⟨x, _, he⟩ | ⟨_, _, f, _, rfl⟩
  · exact Element.owner_of_mem_ofParameters he
  · rfl

/-- Two classes share no element: each has elements of its own name. -/
theorem disjoint_classElements (ha : m.get? a.name = some a) (hb : m.get? b.name = some b)
    (hne : a ≠ b) : (m.classElements a).Disjoint (m.classElements b) := by
  intro e he he'
  have hname := (owner_of_mem_classElements he).symm.trans (owner_of_mem_classElements he')
  exact hne (eq_of_name_eq ha hb hname)

/-- A module shares with a class the elements of the provides methods that the class injects. -/
theorem disjoint_moduleElements_classElements_iff (hm : m.MembersDistinct) (hl : m.IsLegible)
    (hd : d ∈ m.types) :
    (m.moduleElements a).Disjoint (m.classElements d) ↔
      ∀ x ∈ m.providesMethods a, x.1.name = d.name → ∀ declaring ∈ m.lineage d.name,
        ∀ y ∈ declaring.injectMethods, x.2.signature = y.signature → x.2.parameters = [] := by
  constructor
  · intro h x hx hname declaring hdeclaring y hy hsignature
    have hdisjoint :
        (Element.ofParameters x.1.name x.2).Disjoint (Element.ofParameters d.name y) := by
      intro e he he'
      have hmethod : e ∈ m.methodElements d :=
        List.mem_flatMap.2 ⟨declaring, hdeclaring, List.mem_flatMap.2 ⟨y, hy, he'⟩⟩
      exact h (List.mem_flatMap.2 ⟨x, hx, he⟩) (mem_classElements_iff.2 (.inr (.inl hmethod)))
    exact (Element.disjoint_ofParameters_iff (hl.of_mem_providesMethods hx)
      (hl.of_mem_lineage hdeclaring hy)).1 hdisjoint hname hsignature
  · intro h e he he'
    obtain ⟨x, hx, he⟩ := List.mem_flatMap.1 he
    have hlx := hl.of_mem_providesMethods hx
    rcases cases_of_mem_classElements he' with
      ⟨y, hy | ⟨declaring, hdeclaring, hy⟩, he'⟩ | ⟨declaring, _, f, _, rfl⟩
    · -- a constructor of the class is named unlike the method
      have hconstructor := (List.mem_filter.1 hy).1
      have hly := hl.methods d hd y (List.mem_append_left _ hconstructor)
      obtain ⟨hdeclaring, hmethod⟩ := mem_of_mem_providesMethods hx
      have hname :=
        hm.constructor_name d hd y hconstructor _ (mem_types_of_get? hdeclaring) _ hmethod
      refine (Element.disjoint_ofParameters_iff hlx hly).2 (fun _ hsignature => ?_) he he'
      have hkey := (Method.eq_of_signature_eq hlx hly hsignature).1
      exact absurd (congrArg Prod.fst hkey).symm hname
    · refine (Element.disjoint_ofParameters_iff hlx (hl.of_mem_lineage hdeclaring hy)).2 ?_ he he'
      exact fun hname hsignature => h x hx hname declaring hdeclaring y hy hsignature
    · obtain ⟨p, _, heq⟩ := List.mem_map.1 he
      cases heq

end Model

end Wiring
