import Mathlib.Data.List.TakeWhile
import Wiring.Template.Basic

/-!
# The first segment of a template

What the two readers below a template read. A literal goes to the next opener or to the end; an
expression is its own source, in which the name ends at the first `:` or `}` and the default at the
first `}`. So a template that is neither empty nor malformed at its start begins with the source of
exactly one segment.
-/

namespace Wiring.Template

variable {cs rest literal body : List Char} {s : Segment}

/-- An expression opener comes first. -/
def Opens (cs : List Char) : Prop := ['$', '{'] <+: cs

/-- An expression opener occurs. -/
def HasOpener (cs : List Char) : Prop := ['$', '{'] <:+: cs

theorem opens_iff : Opens cs ↔ ∃ body, cs = '$' :: '{' :: body :=
  ⟨fun ⟨body, h⟩ => ⟨body, h.symm⟩, fun ⟨body, h⟩ => ⟨body, h.symm⟩⟩

theorem not_opens_cons {c : Char} (h : ∀ body, c = '$' → cs = '{' :: body → False) :
    ¬Opens (c :: cs) := by
  intro hopens
  obtain ⟨body, hbody⟩ := opens_iff.1 hopens
  obtain ⟨rfl, rfl⟩ := List.cons.inj hbody
  exact h body rfl rfl

theorem Opens.append (h : Opens cs) (rest : List Char) : Opens (cs ++ rest) :=
  h.trans (List.prefix_append cs rest)

theorem Opens.hasOpener (h : Opens cs) : HasOpener cs := h.isInfix

/-- Where a literal may end: at the end of the template, or before an opener. -/
def EndsLiteral (rest : List Char) : Prop := rest = [] ∨ Opens rest

/-- A literal and what follows it make no opener together: an opener does not begin with the
second character of another one. -/
theorem not_opens_append (hliteral : ¬HasOpener literal) (hne : literal ≠ [])
    (hrest : EndsLiteral rest) : ¬Opens (literal ++ rest) := by
  intro h
  obtain ⟨body, hbody⟩ := opens_iff.1 h
  match literal with
  | [] => exact hne rfl
  | [c] =>
    obtain ⟨-, rfl⟩ := List.cons_eq_cons.1 hbody
    rcases hrest with hnil | hopens
    · cases hnil
    · obtain ⟨body', hbody'⟩ := opens_iff.1 hopens
      cases hbody'
  | c :: c' :: literal =>
    obtain ⟨rfl, htail⟩ := List.cons_eq_cons.1 hbody
    obtain ⟨rfl, -⟩ := List.cons_eq_cons.1 htail
    exact hliteral (Opens.hasOpener ⟨literal, rfl⟩)

/-! ## Literals -/

theorem splitLiteral_of_opens (h : Opens cs) : splitLiteral cs = ([], cs) := by
  obtain ⟨body, rfl⟩ := opens_iff.1 h
  rfl

theorem splitLiteral_cons {c : Char} (h : ¬Opens (c :: cs)) :
    splitLiteral (c :: cs) = (c :: (splitLiteral cs).1, (splitLiteral cs).2) := by
  rw [splitLiteral]
  rintro body rfl rfl
  exact h ⟨body, rfl⟩

/-- **A literal is read up to the next opener**, or to the end if there is none. -/
theorem splitLiteral_eq_iff :
    splitLiteral cs = (literal, rest) ↔
      cs = literal ++ rest ∧ ¬HasOpener literal ∧ EndsLiteral rest := by
  constructor
  · intro h
    have happend := splitLiteral_append cs
    rw [h] at happend
    refine ⟨happend.symm, ?_⟩
    clear happend
    induction cs generalizing literal with
    | nil =>
      cases h
      exact ⟨by simp [HasOpener], .inl rfl⟩
    | cons c cs ih =>
      by_cases hopens : Opens (c :: cs)
      · rw [splitLiteral_of_opens hopens] at h
        cases h
        exact ⟨by simp [HasOpener], .inr hopens⟩
      · rw [splitLiteral_cons hopens] at h
        cases h
        obtain ⟨hnone, hends⟩ := ih rfl
        refine ⟨fun hopener => ?_, hends⟩
        rcases List.infix_cons_iff.1 hopener with hfirst | hlater
        · have hall := Opens.append hfirst (splitLiteral cs).2
          rw [List.cons_append, splitLiteral_append] at hall
          exact hopens hall
        · exact hnone hlater
  · rintro ⟨rfl, hliteral, hrest⟩
    induction literal with
    | nil =>
      rcases hrest with rfl | hopens
      · rfl
      · exact splitLiteral_of_opens hopens
    | cons c literal ih =>
      have hopens := not_opens_append hliteral (List.cons_ne_nil c literal) hrest
      rw [List.cons_append] at hopens ⊢
      rw [splitLiteral_cons hopens, ih fun h => hliteral (List.infix_cons h)]

/-! ## Expressions -/

def Segment.isText : Segment → Bool
  | .text _ => true
  | _ => false

/-- What the source of a segment can say: a text is not empty and has no opener, a name ends before
the first `:` or `}`, and a default before the first `}`. -/
def Segment.Regular : Segment → Prop
  | .text literal => literal ≠ "" ∧ ¬HasOpener literal.toList
  | .reference name => ':' ∉ name.toList ∧ '}' ∉ name.toList
  | .referenceOr name default =>
    ':' ∉ name.toList ∧ '}' ∉ name.toList ∧ '}' ∉ default.toList

theorem Segment.toList_source_reference (name : String) :
    (reference name).source.toList = '$' :: '{' :: (name.toList ++ ['}']) := by
  simp [source]

theorem Segment.toList_source_referenceOr (name default : String) :
    (referenceOr name default).source.toList =
      '$' :: '{' :: (name.toList ++ ':' :: '-' :: (default.toList ++ ['}'])) := by
  simp [source]

/-- The characters of a name. -/
def isNameChar (c : Char) : Bool := c != ':' && c != '}'

/-- What ends a name. -/
theorem isNameChar_eq_false_iff {c : Char} : isNameChar c = false ↔ c = ':' ∨ c = '}' := by
  simp only [isNameChar, Bool.and_eq_false_iff, bne_eq_false_iff_eq]

theorem forall_isNameChar_iff {name : List Char} :
    (∀ c ∈ name, isNameChar c = true) ↔ ':' ∉ name ∧ '}' ∉ name := by
  simp only [isNameChar, Bool.and_eq_true, bne_iff_ne]
  constructor
  · intro h
    exact ⟨fun hc => (h _ hc).1 rfl, fun hc => (h _ hc).2 rfl⟩
  · rintro ⟨hcolon, hbrace⟩ c hc
    exact ⟨fun heq => hcolon (heq ▸ hc), fun heq => hbrace (heq ▸ hc)⟩

/-- A run of characters of one kind, and the first one of another kind behind it. -/
theorem span_eq_iff {p : Char → Bool} {run : List Char} {c : Char} :
    cs.takeWhile p = run ∧ cs.dropWhile p = c :: rest ↔
      cs = run ++ c :: rest ∧ (∀ c ∈ run, p c = true) ∧ p c = false := by
  constructor
  · rintro ⟨rfl, hdrop⟩
    refine ⟨?_, fun c hc => List.mem_takeWhile_imp hc, ?_⟩
    · rw [← hdrop, List.takeWhile_append_dropWhile]
    · have hhead := List.head?_dropWhile_not p cs
      simpa [hdrop] using hhead
  · rintro ⟨rfl, hrun, hc⟩
    rw [List.takeWhile_append_of_pos hrun, List.dropWhile_append_of_pos hrun]
    simp [hc]

/-- What is read as an expression is the source of the segment, and the rest. -/
theorem source_of_readExpression (h : readExpression body = .ok (s, rest)) :
    s.isText = false ∧ s.Regular ∧ '$' :: '{' :: body = s.source.toList ++ rest := by
  unfold readExpression at h
  split at h
  · next hdrop =>
    cases h
    obtain ⟨hbody, hname, -⟩ := span_eq_iff.1 ⟨rfl, hdrop⟩
    refine ⟨rfl, ?_, ?_⟩
    · simpa [Segment.Regular] using forall_isNameChar_iff.1 hname
    · rw [Segment.toList_source_reference, String.toList_ofList]
      simpa using hbody
  · next tail hdrop =>
    obtain ⟨hbody, hname, -⟩ := span_eq_iff.1 ⟨rfl, hdrop⟩
    dsimp only at h
    split at h
    · next brace after hclose =>
      cases h
      obtain ⟨htail, hdefault, hbrace⟩ := span_eq_iff.1 ⟨rfl, hclose⟩
      obtain rfl : brace = '}' := by simpa using hbrace
      have hnone : '}' ∉ tail.takeWhile (· != '}') := fun hmem => by simpa using hdefault _ hmem
      refine ⟨rfl, ?_, ?_⟩
      · have := forall_isNameChar_iff.1 hname
        simpa [Segment.Regular] using ⟨this.1, this.2, hnone⟩
      · rw [Segment.toList_source_referenceOr, String.toList_ofList, String.toList_ofList]
        rw [htail] at hbody
        simpa using hbody
    · cases h
  · cases h
  · cases h

/-- What comes after the opener in the source of a reference is read as that reference. -/
theorem readExpression_reference {name : String} (h : (Segment.reference name).Regular)
    (rest : List Char) :
    readExpression (name.toList ++ '}' :: rest) = .ok (.reference name, rest) := by
  obtain ⟨htake, hdrop⟩ :=
    (span_eq_iff (p := isNameChar) (c := '}')).2 ⟨rfl, forall_isNameChar_iff.2 h, by decide⟩
  unfold isNameChar at htake hdrop
  unfold readExpression
  rw [htake, hdrop]
  simp

theorem readExpression_referenceOr {name default : String}
    (h : (Segment.referenceOr name default).Regular) (rest : List Char) :
    readExpression (name.toList ++ ':' :: '-' :: (default.toList ++ '}' :: rest)) =
      .ok (.referenceOr name default, rest) := by
  obtain ⟨hcolon, hbrace, hclose⟩ := h
  obtain ⟨htake, hdrop⟩ := (span_eq_iff (p := isNameChar) (c := ':')).2
    ⟨rfl, forall_isNameChar_iff.2 ⟨hcolon, hbrace⟩, by decide⟩
  have hdefault : ∀ c ∈ default.toList, (c != '}') = true := fun c hc =>
    bne_iff_ne.2 fun heq => hclose (heq ▸ hc)
  obtain ⟨htake', hdrop'⟩ : (default.toList ++ '}' :: rest).takeWhile (· != '}') = default.toList ∧
      (default.toList ++ '}' :: rest).dropWhile (· != '}') = '}' :: rest :=
    span_eq_iff.2 ⟨rfl, hdefault, by decide⟩
  unfold isNameChar at htake hdrop
  unfold readExpression
  rw [htake, hdrop]
  simp [htake', hdrop']

/-- **An expression is its own source.** -/
theorem readExpression_eq_ok_iff :
    readExpression body = .ok (s, rest) ↔
      s.isText = false ∧ s.Regular ∧ '$' :: '{' :: body = s.source.toList ++ rest := by
  constructor
  · exact source_of_readExpression
  · rintro ⟨htext, hregular, hsource⟩
    cases s with
    | text literal => cases htext
    | reference name =>
      rw [Segment.toList_source_reference] at hsource
      obtain rfl : body = name.toList ++ '}' :: rest := by simpa using hsource
      exact readExpression_reference hregular rest
    | referenceOr name default =>
      rw [Segment.toList_source_referenceOr] at hsource
      obtain rfl : body = name.toList ++ ':' :: '-' :: (default.toList ++ '}' :: rest) := by
        simpa using hsource
      exact readExpression_referenceOr hregular rest

/-! ## The first segment -/

/-- A template begins with the source of a segment, and the rest does not prolong the segment. -/
structure Begins (s : Segment) (cs rest : List Char) : Prop where
  regular : s.Regular
  source : cs = s.source.toList ++ rest
  ends : s.isText = true → EndsLiteral rest

theorem Segment.Regular.source_ne_nil (h : s.Regular) : s.source.toList ≠ [] := by
  cases s with
  | text literal => exact fun hnil => h.1 (String.toList_eq_nil_iff.1 hnil)
  | reference name => simp [Segment.toList_source_reference]
  | referenceOr name default => simp [Segment.toList_source_referenceOr]

theorem Begins.length_lt (h : Begins s cs rest) : rest.length < cs.length := by
  have := List.length_pos_iff.2 h.regular.source_ne_nil
  rw [h.source, List.length_append]
  omega

/-- An expression opens with its opener, and a text does not. -/
theorem Begins.opens_iff_not_text (h : Begins s cs rest) : Opens cs ↔ s.isText = false := by
  obtain ⟨hregular, rfl, hends⟩ := h
  cases s with
  | text literal =>
    exact iff_of_false (not_opens_append hregular.2 hregular.source_ne_nil (hends rfl)) nofun
  | reference name =>
    rw [Segment.toList_source_reference]
    exact iff_of_true ⟨_, rfl⟩ rfl
  | referenceOr name default =>
    rw [Segment.toList_source_referenceOr]
    exact iff_of_true ⟨_, rfl⟩ rfl

end Wiring.Template
