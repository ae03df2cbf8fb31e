import Wiring.Declaration
import Wiring.Proofs.Text.Cut
import Wiring.Proofs.TypeRef.Parse

/-!
# Signatures

Messages refer to a method by its signature. Where names are names, a signature tells the name of
the method, and the types and names of its parameters; so it tells what the method overrides. The
commas between parameters are those that stand outside of type arguments.
-/

namespace Wiring

open TypeRef (isNameChar IsClassName WellFormed AllWellFormed)

variable {cs rest : List Char} {depth : Nat}

/-! ## Commas outside of type arguments -/

/-- How deep in type arguments a text is behind a character. A comma stands inside of them, and no
more are closed than opened. -/
def depthAfter (depth : Nat) (c : Char) : Option Nat :=
  if c = '<' then some (depth + 1)
  else if c = '>' then if depth = 0 then none else some (depth - 1)
  else if c = ',' then if depth = 0 then none else some depth
  else some depth

def argumentDepth (depth : Nat) (cs : List Char) : Option Nat := cs.foldlM depthAfter depth

/-- A text without commas outside of type arguments. -/
def HasNoComma (cs : List Char) : Prop := argumentDepth 0 cs = some 0

theorem argumentDepth_cons {c : Char} (depth' : Nat) (h : depthAfter depth c = some depth') :
    argumentDepth depth (c :: cs) = argumentDepth depth' cs := by
  rw [argumentDepth, List.foldlM_cons, h]
  rfl

/-- A comma behind such a text stands outside of type arguments. -/
theorem HasNoComma.not_append (h : HasNoComma cs) (rest : List Char) :
    ¬HasNoComma (cs ++ ',' :: rest) := by
  intro hall
  rw [HasNoComma, argumentDepth] at h hall
  rw [List.foldlM_append, h] at hall
  cases hall

theorem argumentDepth_plain (h : ∀ c ∈ cs, c ∉ ['<', '>', ',']) :
    argumentDepth depth (cs ++ rest) = argumentDepth depth rest := by
  induction cs with
  | nil => rfl
  | cons c cs ih =>
    rw [List.forall_mem_cons] at h
    simp only [List.mem_cons, List.not_mem_nil, or_false, not_or] at h
    obtain ⟨⟨hopen, hclose, hcomma⟩, hcs⟩ := h
    have hc : depthAfter depth c = some depth := by simp [depthAfter, hopen, hclose, hcomma]
    rw [List.cons_append, argumentDepth_cons depth hc]
    exact ih (by simpa using hcs)

theorem not_mem_of_isNameChar {c : Char} (h : isNameChar c = true) : c ∉ ['<', '>', ',', ' '] := by
  have hnone : ['<', '>', ',', ' '].all (isNameChar · == false) = true := by decide
  intro hc
  have hfalse := beq_iff_eq.1 (List.all_eq_true.1 hnone c hc)
  rw [h] at hfalse
  cases hfalse

theorem argumentDepth_word {word : String} (h : ∀ c ∈ word.toList, isNameChar c = true) :
    argumentDepth depth (word.toList ++ rest) = argumentDepth depth rest := by
  refine argumentDepth_plain fun c hc hmem => not_mem_of_isNameChar (h c hc) ?_
  exact List.mem_append_left [' '] hmem

mutual

/-- A type opens and closes its own arguments. -/
theorem argumentDepth_text (depth : Nat) (rest : List Char) :
    (t : TypeRef) → t.WellFormed →
      argumentDepth depth (t.text.toList ++ rest) = argumentDepth depth rest
  | .void, _ => argumentDepth_plain (by simp [TypeRef.text])
  | .primitive kind, _ =>
    argumentDepth_plain (by cases kind <;> simp [TypeRef.text, Primitive.keyword])
  | .declared name [], h => argumentDepth_word h.1.chars
  | .declared name (arg :: args), h => by
    have harg := argumentDepth_text (depth + 1) ((TypeRef.textTail args).toList ++ '>' :: rest) arg h.2.1
    have htail := argumentDepth_textTail depth ('>' :: rest) args h.2.2
    have htext : (TypeRef.declared name (arg :: args)).text.toList ++ rest =
        name.toList ++ '<' :: (arg.text.toList ++ ((TypeRef.textTail args).toList ++ '>' :: rest)) := by
      simp [TypeRef.text]
    rw [htext, argumentDepth_word h.1.chars, argumentDepth_cons (depth + 1) rfl, harg, htail,
      argumentDepth_cons depth rfl]
  | .wildcard, _ => argumentDepth_plain (by simp [TypeRef.text])
  | .wildcardExtends bound, h => by
    rw [TypeRef.text, String.toList_append, List.append_assoc, argumentDepth_plain (by simp)]
    exact argumentDepth_text depth rest bound h
  | .wildcardSuper bound, h => by
    rw [TypeRef.text, String.toList_append, List.append_assoc, argumentDepth_plain (by simp)]
    exact argumentDepth_text depth rest bound h
  | .array component, h => by
    rw [TypeRef.text, String.toList_append, List.append_assoc, argumentDepth_text depth _ component h.1,
      argumentDepth_plain (by simp)]

/-- Further arguments stand behind commas inside. -/
theorem argumentDepth_textTail (depth : Nat) (rest : List Char) :
    (args : List TypeRef) → AllWellFormed args →
      argumentDepth (depth + 1) ((TypeRef.textTail args).toList ++ rest) =
        argumentDepth (depth + 1) rest
  | [], _ => rfl
  | arg :: args, h => by
    have htext : (TypeRef.textTail (arg :: args)).toList ++ rest =
        ',' :: ' ' :: (arg.text.toList ++ ((TypeRef.textTail args).toList ++ rest)) := by
      simp [TypeRef.textTail]
    rw [htext, argumentDepth_cons (depth + 1) rfl,
      argumentDepth_cons (depth + 1) rfl, argumentDepth_text (depth + 1) _ arg h.1,
      argumentDepth_textTail depth rest args h.2]

end

/-! ## Signatures of methods -/

/-- A parameter in a signature. -/
def Parameter.text (p : Parameter) : String := p.type.text ++ " " ++ p.name

/-- Whether the name is a name and the type one that a text denotes. -/
structure Parameter.IsLegible (p : Parameter) : Prop where
  name : ∀ c ∈ p.name.toList, isNameChar c = true
  type : p.type.IsParsed

/-- Whether the method has a name that ends where its parameters begin. -/
structure Method.IsLegible (x : Method) : Prop where
  name : ∀ c ∈ x.name.toList, c ∉ ['.', '(']
  parameters : ∀ p ∈ x.parameters, p.IsLegible

namespace Parameter

variable {p q : Parameter}

theorem IsLegible.hasNoComma (h : p.IsLegible) : HasNoComma p.text.toList := by
  have htext : p.text.toList = p.type.text.toList ++ (' ' :: (p.name.toList ++ [])) := by
    simp [text]
  rw [HasNoComma, htext, argumentDepth_text 0 _ p.type (TypeRef.isParsed_iff.1 h.type),
    argumentDepth_cons 0 rfl, argumentDepth_word h.name]
  rfl

theorem text_ne_nil (p : Parameter) : p.text.toList ≠ [] := by
  simp [text]

/-- The text of a parameter tells its type and its name. -/
theorem IsLegible.eq_of_text_eq (hp : p.IsLegible) (hq : q.IsLegible) (h : p.text = q.text) :
    p.type = q.type ∧ p.name = q.name := by
  have hblank : ∀ r : Parameter, r.IsLegible → ' ' ∉ r.name.toList := fun r hr hmem =>
    not_mem_of_isNameChar (hr.name ' ' hmem) (by decide)
  have hlists := congrArg String.toList h
  simp only [text, String.toList_append, List.append_assoc] at hlists
  obtain ⟨htype, hname⟩ := eq_of_append_cons_eq_last (hblank p hp) (hblank q hq) hlists
  exact ⟨TypeRef.eq_of_text_eq hp.type hq.type (String.toList_inj.1 htype),
    String.toList_inj.1 hname⟩

end Parameter

/-- A text without commas, and more behind a comma, is not the text of one item. -/
theorem not_hasNoComma_intercalate {x y : List Char} {ys : List (List Char)} (hx : HasNoComma x) :
    ¬HasNoComma ([',', ' '].intercalate (x :: y :: ys)) := by
  rw [List.intercalate_cons_cons, List.append_assoc]
  exact hx.not_append _

/-- Texts without commas are told by what they are with commas between them. -/
theorem eq_of_intercalate_eq {xs ys : List (List Char)}
    (hxs : ∀ x ∈ xs, HasNoComma x ∧ x ≠ []) (hys : ∀ y ∈ ys, HasNoComma y ∧ y ≠ [])
    (h : [',', ' '].intercalate xs = [',', ' '].intercalate ys) : xs = ys := by
  have hne : ∀ {x : List Char} {xs : List (List Char)}, x ≠ [] →
      [',', ' '].intercalate (x :: xs) ≠ [] := by
    intro x xs hx
    cases xs with
    | nil => simpa using hx
    | cons x' xs => simp
  induction xs generalizing ys with
  | nil =>
    cases ys with
    | nil => rfl
    | cons y ys => exact absurd h.symm (hne (hys y List.mem_cons_self).2)
  | cons x xs ih =>
    have hx := hxs x List.mem_cons_self
    cases ys with
    | nil => exact absurd h (hne hx.2)
    | cons y ys =>
      have hy := hys y List.mem_cons_self
      match xs, ys with
      | [], [] => simpa using h
      | [], y' :: ys =>
        rw [List.intercalate_singleton] at h
        exact absurd (h ▸ hx.1) (not_hasNoComma_intercalate hy.1)
      | x' :: xs, [] =>
        rw [List.intercalate_singleton] at h
        exact absurd (h ▸ hy.1) (not_hasNoComma_intercalate hx.1)
      | x' :: xs, y' :: ys =>
        rw [List.intercalate_cons_cons, List.intercalate_cons_cons, List.append_assoc,
          List.append_assoc] at h
        obtain ⟨rfl, hrest⟩ :=
          eq_of_append_cons_eq (fun _ back hfront => hfront.not_append back) hx.1 hy.1 h
        rw [ih (fun z hz => hxs z (List.mem_cons_of_mem _ hz))
          (fun z hz => hys z (List.mem_cons_of_mem _ hz)) (List.cons.inj hrest).2]

namespace Method

variable {x y : Method}

/-- The name, the bracket and the parameters of a signature. -/
theorem toList_signature (x : Method) :
    x.signature.toList =
      x.name.toList ++
        '(' :: ([',', ' '].intercalate (x.parameters.map (·.text.toList)) ++ [')']) := by
  simp [signature, Parameter.text, Function.comp_def]

/-- **A signature tells the name of a method, and the types and names of its parameters.** -/
theorem eq_of_signature_eq (hx : x.IsLegible) (hy : y.IsLegible) (h : x.signature = y.signature) :
    x.overrideKey = y.overrideKey ∧ x.parameters.map (·.name) = y.parameters.map (·.name) := by
  have hbracket : ∀ z : Method, z.IsLegible → '(' ∉ z.name.toList := fun z hz hmem =>
    hz.name '(' hmem (by decide)
  have hlists := congrArg String.toList h
  rw [toList_signature, toList_signature] at hlists
  obtain ⟨hname, hparameters⟩ := eq_of_append_cons_eq_first (hbracket x hx) (hbracket y hy) hlists
  have htexts : x.parameters.map (·.text.toList) = y.parameters.map (·.text.toList) := by
    refine eq_of_intercalate_eq ?_ ?_ (List.append_cancel_right hparameters)
    · simp only [List.forall_mem_map]
      exact fun p hp => ⟨(hx.parameters p hp).hasNoComma, p.text_ne_nil⟩
    · simp only [List.forall_mem_map]
      exact fun p hp => ⟨(hy.parameters p hp).hasNoComma, p.text_ne_nil⟩
  have hsame : ∀ p ∈ x.parameters, ∀ q ∈ y.parameters, p.text.toList = q.text.toList →
      p.type = q.type ∧ p.name = q.name := fun p hp q hq hpq =>
    (hx.parameters p hp).eq_of_text_eq (hy.parameters q hq) (String.toList_inj.1 hpq)
  refine ⟨Prod.ext (String.toList_inj.1 hname) ?_, ?_⟩
  · exact map_eq_map_of_imp (fun p hp q hq hpq => (hsame p hp q hq hpq).1) htexts
  · exact map_eq_map_of_imp (fun p hp q hq hpq => (hsame p hp q hq hpq).2) htexts

end Method

end Wiring
