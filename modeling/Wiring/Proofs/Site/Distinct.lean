import Wiring.Proofs.Site.Members

/-!
# Sites that are collected once

A walk comes to each module and to each class once. So the elements of the sites are distinct unless
a class has one of its elements twice, or two types of the walk have one in common: these are
exactly the ways for an element to be collected again.
-/

namespace Wiring.Model

open TypeDecl (SharesNoMethod SharesNoField)

/-- No member with parameters, and no field, is reported twice by a walk. -/
structure Unambiguous (m : Model) (root : String) : Prop where
  /-- No two modules have a provides method in common. -/
  shared : ∀ a b, .beginModule a ∈ (m.walk root).events → .beginModule b ∈ (m.walk root).events →
    a ≠ b → ∀ x ∈ m.providesMethods a, x ∈ m.providesMethods b → x.2.parameters = []
  /-- No injected method of a class has the signature of one that it overrides. -/
  overridden : ∀ d, .beginClass d ∈ (m.walk root).events →
    (m.lineage d.name).Pairwise SharesNoMethod
  /-- No injected field of a class hides another one. -/
  hidden : ∀ d, .beginClass d ∈ (m.walk root).events →
    (m.lineage d.name).Pairwise SharesNoField
  /-- No provides method is injected into the class that declares it. -/
  injected : ∀ a d, .beginModule a ∈ (m.walk root).events → .beginClass d ∈ (m.walk root).events →
    ∀ x ∈ m.providesMethods a, x.1.name = d.name → ∀ declaring ∈ m.lineage d.name,
      ∀ y ∈ declaring.injectMethods, x.2.signature = y.signature → x.2.parameters = []

variable {m : Model} {root : String} {a b c d : TypeDecl} {modules classes : List TypeDecl}

/-! ## The whole walk -/

def componentElements (c : TypeDecl) : List Element :=
  c.provisionMethods.map fun x => .result c.name x.name

theorem Blocks.elements_eq (h : m.Blocks root c modules classes) :
    m.elements root = componentElements c ++
      (modules.flatMap m.moduleElements ++ classes.flatMap m.classElements) := by
  rw [elements, h.events_eq, List.flatMap_append, List.flatMap_append, List.flatMap_assoc,
    List.flatMap_assoc, List.append_assoc, elements_componentBlock]
  simp only [elements_moduleBlock, elements_classBlock]
  rfl

theorem isResult_of_mem_componentElements {e : Element} (h : e ∈ componentElements c) :
    e.isResult = true := by
  obtain ⟨x, _, rfl⟩ := List.mem_map.1 h
  rfl

theorem isResult_of_mem_moduleElements {e : Element} (h : e ∈ m.moduleElements a) :
    e.isResult = false := by
  obtain ⟨x, _, he⟩ := List.mem_flatMap.1 h
  obtain ⟨p, _, rfl⟩ := List.mem_map.1 he
  rfl

theorem isResult_of_mem_classElements {e : Element} (h : e ∈ m.classElements d) :
    e.isResult = false := by
  rcases cases_of_mem_classElements h with ⟨x, _, he⟩ | ⟨_, _, f, _, rfl⟩
  · obtain ⟨p, _, rfl⟩ := List.mem_map.1 he
    rfl
  · rfl

/-- The provision methods of a component have no parameters, so their names are distinct. -/
theorem nodup_componentElements (hm : m.MembersDistinct) (hc : c ∈ m.types) :
    (componentElements c).Nodup := by
  refine List.Nodup.map_on (fun x hx y hy heq => ?_)
    ((hm.nodup_methods hc).sublist List.filter_sublist)
  injection heq with _ hname
  obtain ⟨hx, hxnone⟩ := List.mem_filter.1 hx
  obtain ⟨hy, hynone⟩ := List.mem_filter.1 hy
  simp only [Bool.and_eq_true, List.isEmpty_iff] at hxnone hynone
  refine hm.eq_of_overrideKey_eq hc hx hy ?_
  rw [Method.overrideKey, Method.overrideKey, hname, hxnone.1, hynone.1]

/-- All elements of a walk are legible. -/
theorem Blocks.isLegible_of_mem_elements (h : m.Blocks root c modules classes) (hl : m.IsLegible)
    {e : Element} (he : e ∈ m.elements root) : e.IsLegible := by
  rw [h.elements_eq, List.mem_append, List.mem_append] at he
  rcases he with he | he | he
  · obtain ⟨x, hx, rfl⟩ := List.mem_map.1 he
    have hlx := hl.methods c (mem_types_of_get? h.get?_component) x
      (List.mem_append_right _ (List.mem_filter.1 hx).1)
    exact fun hdot => hlx.name '.' hdot (by decide)
  · obtain ⟨a, _, he⟩ := List.mem_flatMap.1 he
    obtain ⟨x, hx, he⟩ := List.mem_flatMap.1 he
    have howner := hl.types _ (mem_types_of_get? (mem_of_mem_providesMethods hx).1)
    exact Element.isLegible_of_mem_ofParameters howner (hl.of_mem_providesMethods hx) he
  · obtain ⟨d, hd, he⟩ := List.mem_flatMap.1 he
    have hdtypes := mem_types_of_get? (h.get?_class d hd)
    rcases cases_of_mem_classElements he with
      ⟨x, hx | ⟨declaring, hdeclaring, hx⟩, he⟩ | ⟨declaring, hdeclaring, f, hf, rfl⟩
    · exact Element.isLegible_of_mem_ofParameters (hl.types d hdtypes)
        (hl.methods d hdtypes x (List.mem_append_left _ (List.mem_filter.1 hx).1)) he
    · exact Element.isLegible_of_mem_ofParameters (hl.types d hdtypes)
        (hl.of_mem_lineage hdeclaring hx) he
    · exact hl.fields _ (mem_types_of_get? (get?_of_mem_lineage hdeclaring)) f
        (List.mem_filter.1 hf).1

/-- **The elements of a walk are distinct exactly if no member is reported twice.** -/
theorem Blocks.nodup_elements_iff (h : m.Blocks root c modules classes) (hm : m.MembersDistinct)
    (hl : m.IsLegible) : (m.elements root).Nodup ↔ m.Unambiguous root := by
  have hclass : ∀ d ∈ classes, d ∈ m.types := fun d hd => mem_types_of_get? (h.get?_class d hd)
  have hcomponent : (componentElements c).Disjoint
      (modules.flatMap m.moduleElements ++ classes.flatMap m.classElements) := by
    intro e he hrest
    have htrue := isResult_of_mem_componentElements he
    rcases List.mem_append.1 hrest with hrest | hrest
    · obtain ⟨a, _, hrest⟩ := List.mem_flatMap.1 hrest
      rw [isResult_of_mem_moduleElements hrest] at htrue
      cases htrue
    · obtain ⟨d, _, hrest⟩ := List.mem_flatMap.1 hrest
      rw [isResult_of_mem_classElements hrest] at htrue
      cases htrue
  rw [h.elements_eq, List.nodup_append', List.nodup_append', List.nodup_flatMap,
    List.nodup_flatMap, disjoint_flatMap_iff,
    and_iff_right (nodup_componentElements hm (mem_types_of_get? h.get?_component)),
    and_iff_left hcomponent, and_iff_right fun a _ => nodup_moduleElements hm hl a]
  constructor
  · rintro ⟨hmodules, ⟨hclasses, _⟩, hapart⟩
    have hsymm : Std.Symm (Function.onFun List.Disjoint m.moduleElements) :=
      ⟨fun _ _ hdisjoint => List.Disjoint.symm hdisjoint⟩
    have hclasses : ∀ d, .beginClass d ∈ (m.walk root).events →
        (m.lineage d.name).Pairwise SharesNoMethod ∧ (m.lineage d.name).Pairwise SharesNoField := by
      intro d hd
      have hmem := h.beginClass_mem_iff.1 hd
      exact (nodup_classElements_iff hm hl (hclass d hmem)).1 (hclasses d hmem)
    exact
      { shared := fun a b ha hb hne => (disjoint_moduleElements_iff hm hl).1 <|
          hmodules.forall (h.beginModule_mem_iff.1 ha) (h.beginModule_mem_iff.1 hb) hne
        overridden := fun d hd => (hclasses d hd).1
        hidden := fun d hd => (hclasses d hd).2
        injected := by
          intro a d ha hd
          have hmem := h.beginClass_mem_iff.1 hd
          exact (disjoint_moduleElements_classElements_iff hm hl (hclass d hmem)).1
            (hapart a (h.beginModule_mem_iff.1 ha) d hmem) }
  · intro hu
    refine ⟨?_, ⟨fun d hd => ?_, ?_⟩, fun a ha d hd => ?_⟩
    · refine h.nodup_modules.pairwise_of_forall_ne fun a ha b hb hne => ?_
      exact (disjoint_moduleElements_iff hm hl).2
        (hu.shared a b (h.beginModule_mem_iff.2 ha) (h.beginModule_mem_iff.2 hb) hne)
    · have hbegun := h.beginClass_mem_iff.2 hd
      exact (nodup_classElements_iff hm hl (hclass d hd)).2
        ⟨hu.overridden d hbegun, hu.hidden d hbegun⟩
    · refine h.nodup_classes.pairwise_of_forall_ne fun a ha b hb hne => ?_
      exact disjoint_classElements (h.get?_class a ha) (h.get?_class b hb) hne
    · exact (disjoint_moduleElements_classElements_iff hm hl (hclass d hd)).2
        (hu.injected a d (h.beginModule_mem_iff.2 ha) (h.beginClass_mem_iff.2 hd))

/-- **The sites have distinct elements exactly if no member is reported twice.** -/
theorem nodup_element_sites_iff {sites : List Site} (h : m.sites root = .ok sites)
    (hm : m.MembersDistinct) (hl : m.IsLegible) :
    (sites.map (·.element)).Nodup ↔ m.Unambiguous root := by
  obtain ⟨c, modules, classes, hb⟩ := blocks_of_failure_eq_none (sites_eq_ok_iff.1 h).1
  rw [map_element_sites h, ← hb.nodup_elements_iff hm hl]
  refine ⟨fun hnodup => .of_map _ hnodup, fun hnodup => hnodup.map_on fun e he e' he' heq => ?_⟩
  exact Element.eq_of_text_eq (hb.isLegible_of_mem_elements hl he)
    (hb.isLegible_of_mem_elements hl he') heq

/-! ## An overriding setter

A component asks for a class with a setter, whose superclass has one as well. -/

def portParameter : Parameter := { name := "port", type := .primitive .int }

def portSetter (name : String) : Method := { name, parameters := [portParameter], inject := true }

def subMethod : Method := { name := "sub", returns := .declared "app.Sub" [] }

def appComponent : TypeDecl := { name := "app.App", kind := .component, methods := [subMethod] }

def baseClass : TypeDecl := { name := "app.Base", methods := [portSetter "setPort"] }

def subClass (name : String) : TypeDecl :=
  { name := "app.Sub", superclass := some "app.Base", methods := [portSetter name] }

/-- The class has the setter `name`, its superclass has `setPort`. -/
def setterModel (name : String) : Model :=
  Model.empty.insertAll [appComponent, baseClass, subClass name]

def subSite : Site where
  element := (Element.result "app.App" "sub").text
  kind := .provisionResult
  style := .verbatim
  declaredType := .declared "app.Sub" []
  providedType := .declared "app.Sub" []
  qualifier := none
  annotations := []
  nullable := false

def setterSite (name : String) : Site where
  element := (Element.parameter "port" "app.Sub" (portSetter name).signature).text
  kind := .methodParameter
  style := .primitive
  declaredType := .primitive .int
  providedType := .primitive .int
  qualifier := none
  annotations := []
  nullable := false

theorem types_setterModel (name : String) :
    (setterModel name).types = [appComponent, baseClass, subClass name] := by
  cbv

theorem walk_setterModel (name : String) :
    (setterModel name).walk "app.App" =
      ⟨[ .beginComponent appComponent, .provisionMethod appComponent subMethod,
          .endComponent appComponent, .beginClass (subClass name),
          .methodParameter (subClass name) (portSetter name) portParameter,
          .methodParameter (subClass name) (portSetter "setPort") portParameter,
          .endClass (subClass name) ],
        none⟩ := by
  cbv

theorem sites_setterModel (name : String) :
    (setterModel name).sites "app.App" = .ok [subSite, setterSite name, setterSite "setPort"] := by
  refine sites_eq_ok_iff.2 ⟨by rw [walk_setterModel], ?_⟩
  rw [points, walk_setterModel]
  exact .cons rfl (.cons rfl (.cons rfl .nil))

theorem membersDistinct_setterModel (name : String) : (setterModel name).MembersDistinct := by
  constructor <;>
    simp [types_setterModel, appComponent, baseClass, subClass, subMethod, portSetter]

theorem isLegible_portSetter {name : String} (h : ∀ c ∈ name.toList, c ∉ ['.', '(']) :
    (portSetter name).IsLegible := by
  have hport : "port".toList.all TypeRef.isNameChar = true := by decide
  refine ⟨h, fun p hp => ?_⟩
  rw [List.mem_singleton.1 hp]
  exact ⟨List.all_eq_true.1 hport, TypeRef.isParsed_iff.2 trivial⟩

theorem isLegible_setterModel {name : String} (h : ∀ c ∈ name.toList, c ∉ ['.', '(']) :
    (setterModel name).IsLegible := by
  have hsub : subMethod.IsLegible := ⟨by simp [subMethod], List.forall_mem_nil _⟩
  have hbase : (portSetter "setPort").IsLegible := isLegible_portSetter (by simp)
  constructor
  · simp [types_setterModel, appComponent, baseClass, subClass]
  · simpa [types_setterModel, appComponent, baseClass, subClass] using
      ⟨hsub, hbase, isLegible_portSetter h⟩
  · simp [types_setterModel, appComponent, baseClass, subClass]

/-- The parameter of a setter is collected once for the class and once for its superclass. -/
theorem collected_twice :
    (setterModel "setPort").MembersDistinct ∧
      (setterModel "setPort").sites "app.App" =
        .ok [subSite, setterSite "setPort", setterSite "setPort"] ∧
      ¬([subSite, setterSite "setPort", setterSite "setPort"].map (·.element)).Nodup :=
  ⟨membersDistinct_setterModel _, sites_setterModel _, by simp⟩

/-- Where the setters have different names, each is collected once. -/
theorem collected_once :
    (setterModel "setHost").sites "app.App" =
        .ok [subSite, setterSite "setHost", setterSite "setPort"] ∧
      (setterModel "setHost").MembersDistinct ∧ (setterModel "setHost").IsLegible ∧
      ([subSite, setterSite "setHost", setterSite "setPort"].map (·.element)).Nodup ∧
      (setterModel "setHost").Unambiguous "app.App" := by
  have hsites := sites_setterModel "setHost"
  have hm := membersDistinct_setterModel "setHost"
  have hl : (setterModel "setHost").IsLegible := isLegible_setterModel (by simp)
  have hnodup : ([subSite, setterSite "setHost", setterSite "setPort"].map (·.element)).Nodup := by
    decide +kernel
  exact ⟨hsites, hm, hl, hnodup, (nodup_element_sites_iff hsites hm hl).1 hnodup⟩

end Wiring.Model
