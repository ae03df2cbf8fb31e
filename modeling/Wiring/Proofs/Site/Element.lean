import Wiring.Proofs.Declaration.Signature
import Wiring.Proofs.Order.Related
import Wiring.Proofs.Site.Collect

/-!
# Elements

A site refers to its element by a text. The text tells what the element is, and of which member of
which type, as long as names are names: then one text is that of one element.
-/

namespace Wiring

/-- What the text of an element says. -/
inductive Element
  | result (owner method : String)
  | parameter (name owner signature : String)
  | field (owner name : String)
deriving DecidableEq, Repr

namespace Element

def text : Element → String
  | result owner method => "provision method " ++ owner ++ "." ++ method ++ "()"
  | parameter name owner signature => "parameter '" ++ name ++ "' of " ++ owner ++ "." ++ signature
  | field owner name => "field " ++ owner ++ "." ++ name

/-- The type that the element belongs to. -/
def owner : Element → String
  | result owner _ | parameter _ owner _ | field owner _ => owner

def isResult : Element → Bool
  | result .. => true
  | _ => false

/-- Whether the names end where the text says that they do. -/
def IsLegible : Element → Prop
  | result _ method => '.' ∉ method.toList
  | parameter name owner signature =>
    '\'' ∉ name.toList ∧ '(' ∉ owner.toList ∧
      ∃ word rest, signature.toList = word ++ '(' :: rest ∧ ∀ c ∈ word, c ∉ ['.', '(']
  | field _ name => '.' ∉ name.toList

theorem toList_text_result (owner method : String) :
    (result owner method).text.toList =
      "provision method ".toList ++ ((owner.toList ++ '.' :: method.toList) ++ "()".toList) := by
  unfold text
  rw [String.toList_append, String.toList_append, String.toList_append, String.toList_append,
    List.append_assoc, List.append_assoc, List.append_assoc, List.append_assoc]
  rfl

theorem toList_text_parameter (name owner signature : String) :
    (parameter name owner signature).text.toList =
      "parameter '".toList ++
        (name.toList ++ '\'' :: (" of ".toList ++ (owner.toList ++ '.' :: signature.toList))) := by
  unfold text
  rw [String.toList_append, String.toList_append, String.toList_append, String.toList_append,
    String.toList_append, List.append_assoc, List.append_assoc, List.append_assoc, List.append_assoc]
  rfl

theorem toList_text_field (owner name : String) :
    (field owner name).text.toList =
      "field ".toList ++ (owner.toList ++ '.' :: name.toList) := by
  unfold text
  rw [String.toList_append, String.toList_append, String.toList_append, List.append_assoc,
    List.append_assoc]
  rfl

/-- The owner and the signature behind it. -/
theorem eq_of_owner_signature {owner owner' signature signature' word word' rest rest' : List Char}
    (howner : '(' ∉ owner) (howner' : '(' ∉ owner') (hsignature : signature = word ++ '(' :: rest)
    (hsignature' : signature' = word' ++ '(' :: rest') (hword : ∀ c ∈ word, c ∉ ['.', '('])
    (hword' : ∀ c ∈ word', c ∉ ['.', '('])
    (h : owner ++ '.' :: signature = owner' ++ '.' :: signature') :
    owner = owner' ∧ signature = signature' := by
  subst hsignature hsignature'
  have hbracket : ∀ {owner word : List Char}, '(' ∉ owner → (∀ c ∈ word, c ∉ ['.', '(']) →
      '(' ∉ owner ++ '.' :: word := by
    intro owner word howner hword hmem
    simp only [List.mem_append, List.mem_cons, Char.reduceEq, false_or] at hmem
    rcases hmem with hmem | hmem
    · exact howner hmem
    · exact hword '(' hmem (by decide)
  have hdot : ∀ {word : List Char}, (∀ c ∈ word, c ∉ ['.', '(']) → '.' ∉ word :=
    fun hword hmem => hword '.' hmem (by decide)
  -- the name of the method ends at the first bracket and begins behind the last dot before it
  rw [← List.cons_append, ← List.cons_append, ← List.append_assoc, ← List.append_assoc] at h
  obtain ⟨hfront, rfl⟩ :=
    eq_of_append_cons_eq_first (hbracket howner hword) (hbracket howner' hword') h
  obtain ⟨rfl, rfl⟩ := eq_of_append_cons_eq_last (hdot hword) (hdot hword') hfront
  exact ⟨rfl, rfl⟩

/-- **Legible elements are told apart by their texts.** -/
theorem eq_of_text_eq {a b : Element} (ha : a.IsLegible) (hb : b.IsLegible)
    (h : a.text = b.text) : a = b := by
  have hlists := congrArg String.toList h
  -- the first two letters tell the kinds apart
  cases a with
  | result owner method =>
    cases b with
    | result owner' method' =>
      rw [toList_text_result, toList_text_result] at hlists
      obtain ⟨howner, hmethod⟩ := eq_of_append_cons_eq_last ha hb
        (List.append_cancel_right (List.append_cancel_left hlists))
      rw [String.toList_inj.1 howner, String.toList_inj.1 hmethod]
    | _ => simp [toList_text_result, toList_text_parameter, toList_text_field] at hlists
  | parameter name owner signature =>
    cases b with
    | parameter name' owner' signature' =>
      rw [toList_text_parameter, toList_text_parameter] at hlists
      obtain ⟨hname, howner, word, rest, hsignature, hword⟩ := ha
      obtain ⟨hname', howner', word', rest', hsignature', hword'⟩ := hb
      obtain ⟨heq, hrest⟩ :=
        eq_of_append_cons_eq_first hname hname' (List.append_cancel_left hlists)
      obtain ⟨howners, hsignatures⟩ := eq_of_owner_signature howner howner' hsignature hsignature'
        hword hword' (List.append_cancel_left hrest)
      rw [String.toList_inj.1 heq, String.toList_inj.1 howners, String.toList_inj.1 hsignatures]
    | _ => simp [toList_text_result, toList_text_parameter, toList_text_field] at hlists
  | field owner name =>
    cases b with
    | field owner' name' =>
      rw [toList_text_field, toList_text_field] at hlists
      obtain ⟨howner, hname⟩ :=
        eq_of_append_cons_eq_last ha hb (List.append_cancel_left hlists)
      rw [String.toList_inj.1 howner, String.toList_inj.1 hname]
    | _ => simp [toList_text_result, toList_text_parameter, toList_text_field] at hlists

/-- The elements at the parameters of a method of the type `owner`. -/
def ofParameters (owner : String) (x : Method) : List Element :=
  x.parameters.map fun p => parameter p.name owner x.signature

theorem isLegible_of_mem_ofParameters {owner : String} {x : Method} {e : Element}
    (howner : '(' ∉ owner.toList) (hx : x.IsLegible) (h : e ∈ ofParameters owner x) :
    e.IsLegible := by
  obtain ⟨p, hp, rfl⟩ := List.mem_map.1 h
  refine ⟨fun hquote => ?_, howner, _, _, x.toList_signature, hx.name⟩
  have hname := (hx.parameters p hp).name '\'' hquote
  revert hname
  decide

theorem owner_of_mem_ofParameters {owner : String} {x : Method} {e : Element}
    (h : e ∈ ofParameters owner x) : e.owner = owner := by
  obtain ⟨p, _, rfl⟩ := List.mem_map.1 h
  rfl

/-- Two methods share an element exactly if they have one owner, one signature, and parameters. -/
theorem disjoint_ofParameters_iff {owner owner' : String} {x y : Method} (hx : x.IsLegible)
    (hy : y.IsLegible) :
    (ofParameters owner x).Disjoint (ofParameters owner' y) ↔
      (owner = owner' → x.signature = y.signature → x.parameters = []) := by
  constructor
  · rintro hdisjoint rfl hsignature
    by_contra hne
    obtain ⟨p, hp⟩ := List.exists_mem_of_ne_nil _ hne
    -- a signature names the parameters
    have hnames := (Method.eq_of_signature_eq hx hy hsignature).2
    obtain ⟨q, hq, hname⟩ := List.mem_map.1 (hnames ▸ List.mem_map_of_mem (f := Parameter.name) hp)
    refine hdisjoint (List.mem_map_of_mem hp) (List.mem_map.2 ⟨q, hq, ?_⟩)
    rw [hname, hsignature]
  · intro hnone e he he'
    obtain ⟨p, hp, rfl⟩ := List.mem_map.1 he
    obtain ⟨q, _, heq⟩ := List.mem_map.1 he'
    injection heq with _ howner hsignature
    rw [hnone howner.symm hsignature.symm] at hp
    cases hp

theorem nodup_ofParameters {owner : String} {x : Method} (h : (x.parameters.map (·.name)).Nodup) :
    (ofParameters owner x).Nodup := by
  have hmap : ofParameters owner x =
      (x.parameters.map (·.name)).map fun name => parameter name owner x.signature := by
    simp [ofParameters, Function.comp_def]
  rw [hmap]
  refine List.Nodup.map (fun name name' heq => ?_) h
  injection heq

end Element

/-! ## The elements of a walk -/

/-- The elements of the injection points that an event reports. -/
def Walk.Event.elements : Walk.Event → List Element
  | provisionMethod c x => [.result c.name x.name]
  | providesMethod _ declaring x => Element.ofParameters declaring.name x
  | constructorParameter c x p => [.parameter p.name c.name x.signature]
  | methodParameter c x p => [.parameter p.name c.name x.signature]
  | field c f => [.field c.name f.name]
  | _ => []

theorem Walk.Event.map_element_points (e : Walk.Event) :
    e.points.map (·.element) = e.elements.map Element.text := by
  cases e with
  | providesMethod owner declaring x =>
    rw [points, elements, Element.ofParameters, List.map_map, List.map_map]
    rfl
  | _ => rfl

namespace Model

open Walk (Event)

variable {m : Model} {root : String}

/-- The elements of the injection points that the walk from a root comes to. -/
def elements (m : Model) (root : String) : List Element :=
  (m.walk root).events.flatMap Event.elements

theorem map_element_points (m : Model) (root : String) :
    (m.points root).map (·.element) = (m.elements root).map Element.text := by
  simp [points, elements, List.map_flatMap, Event.map_element_points]

/-- **The sites are those of the elements**, in order. -/
theorem map_element_sites {sites : List Site} (h : m.sites root = .ok sites) :
    sites.map (·.element) = (m.elements root).map Element.text := by
  rw [← map_element_points]
  refine (map_eq_of_forall₂ (fun p s hs => ?_) (sites_eq_ok_iff.1 h).2).symm
  exact (Site.element_eq_of_ofPoint hs).symm

theorem elements_componentBlock (c : TypeDecl) :
    (componentBlock c).flatMap Event.elements =
      c.provisionMethods.map fun x => .result c.name x.name := by
  simp [componentBlock, Event.elements, List.flatMap_assoc, List.map_eq_flatMap]

theorem elements_moduleBlock (m : Model) (d : TypeDecl) :
    (m.moduleBlock d).flatMap Event.elements =
      (m.providesMethods d).flatMap fun x => Element.ofParameters x.1.name x.2 := by
  simp [moduleBlock, Event.elements, List.flatMap_map]

theorem elements_classBlock (m : Model) (d : TypeDecl) :
    (m.classBlock d).flatMap Event.elements =
      d.injectConstructors.flatMap (fun x => Element.ofParameters d.name x) ++
        (m.lineage d.name).flatMap fun declaring =>
          declaring.injectMethods.flatMap (fun x => Element.ofParameters d.name x) ++
            declaring.injectFields.map fun f => .field d.name f.name := by
  simp [classBlock, Event.elements, List.flatMap_assoc, List.map_eq_flatMap, Element.ofParameters]

end Model

end Wiring
