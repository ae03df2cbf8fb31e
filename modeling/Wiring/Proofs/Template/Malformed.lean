import Wiring.Proofs.Template.Handler

/-!
# Where a template is malformed

A scan goes over characters at which no expression opens and over complete expressions. It stops at
an opener whose expression is not complete, and there is at most one such place in a template, for
nothing is read behind it. What comes before that place is a template of its own, with the events
that the scan has come to by then.
-/

namespace Wiring.Template

variable {cs before rest body : List Char} {s : Segment} {offset : Nat} {events : List Event}
  {fault : Fault}

/-! ## Incomplete expressions -/

/-- What follows the opener of an incomplete expression, and the message about it. -/
inductive Malformed : String → List Char → Prop
  /-- The name does not end. -/
  | name {body : List Char} (hcolon : ':' ∉ body) (hbrace : '}' ∉ body) :
    Malformed "Unclosed variable expression" body
  /-- The name ends with a `:` that no `-` follows. -/
  | operator {name rest : List Char} (hcolon : ':' ∉ name) (hbrace : '}' ∉ name)
    (hdash : rest.head? ≠ some '-') : Malformed "Invalid variable expression" (name ++ ':' :: rest)
  /-- The default does not end. -/
  | default {name rest : List Char} (hcolon : ':' ∉ name) (hbrace : '}' ∉ name)
    (hclose : '}' ∉ rest) :
    Malformed "Unclosed variable expression" (name ++ ':' :: '-' :: rest)

theorem malformed_of_readExpression (h : readExpression body = .error fault) :
    Malformed fault.message body := by
  unfold readExpression at h
  split at h
  · cases h
  · next rest hdrop =>
    obtain ⟨hbody, hname, -⟩ := span_eq_iff.1 ⟨rfl, hdrop⟩
    obtain ⟨hcolon, hbrace⟩ := forall_isNameChar_iff.1 hname
    dsimp only at h
    split at h
    · cases h
    · next hclose =>
      cases h
      have hrest : '}' ∉ rest := fun hmem => by
        simpa using List.dropWhile_eq_nil_iff.1 hclose _ hmem
      rw [hbody]
      exact .default hcolon hbrace hrest
  · next rest hdash hdrop =>
    cases h
    obtain ⟨hbody, hname, -⟩ := span_eq_iff.1 ⟨rfl, hdrop⟩
    obtain ⟨hcolon, hbrace⟩ := forall_isNameChar_iff.1 hname
    rw [hbody]
    refine .operator hcolon hbrace fun hhead => ?_
    obtain ⟨rest, rfl⟩ := List.head?_eq_some_iff.1 hhead
    exact hdash rest rfl
  · next hbrace _ hcolon =>
    cases h
    cases hdrop : body.dropWhile isNameChar with
    | nil =>
      have hname := forall_isNameChar_iff.1 (List.dropWhile_eq_nil_iff.1 hdrop)
      exact .name hname.1 hname.2
    | cons c rest =>
      -- what ends a name is one of the characters that were tried
      have hend : isNameChar c = false := (span_eq_iff.1 ⟨rfl, hdrop⟩).2.2
      rcases isNameChar_eq_false_iff.1 hend with rfl | rfl
      · exact absurd hdrop (hcolon rest)
      · exact absurd hdrop (hbrace rest)

theorem Fault.eq_of_message_eq {fault fault' : Fault} (h : fault.message = fault'.message) :
    fault = fault' := by
  cases fault <;> cases fault' <;> first | rfl | exact absurd h (by decide)

theorem Malformed.exists_readExpression {message : String} (h : Malformed message body) :
    ∃ fault : Fault, fault.message = message ∧ readExpression body = .error fault := by
  -- the character that ends a name tells how the expression goes on
  have hname {name rest : List Char} (hcolon : ':' ∉ name) (hbrace : '}' ∉ name) :
      (name ++ ':' :: rest).dropWhile isNameChar = ':' :: rest :=
    (span_eq_iff.2 ⟨rfl, forall_isNameChar_iff.2 ⟨hcolon, hbrace⟩, by decide⟩).2
  unfold isNameChar at hname
  unfold readExpression
  cases h with
  | name hcolon hbrace =>
    have hdrop : body.dropWhile (fun c => c != ':' && c != '}') = [] :=
      List.dropWhile_eq_nil_iff.2 (forall_isNameChar_iff.2 ⟨hcolon, hbrace⟩)
    exact ⟨.unclosed, rfl, by rw [hdrop]⟩
  | @operator name rest hcolon hbrace hdash =>
    refine ⟨.invalid, rfl, ?_⟩
    rw [hname hcolon hbrace]
    cases rest with
    | nil => rfl
    | cons c rest =>
      have hc : c ≠ '-' := fun heq => hdash (congrArg some heq)
      simp [hc]
  | @default name rest hcolon hbrace hclose =>
    have hdrop : rest.dropWhile (· != '}') = [] :=
      List.dropWhile_eq_nil_iff.2 fun c hc => bne_iff_ne.2 fun heq => hclose (heq ▸ hc)
    refine ⟨.unclosed, rfl, ?_⟩
    rw [hname hcolon hbrace]
    simp [hdrop]

/-- **Reading an expression fails exactly on incomplete ones.** -/
theorem readExpression_eq_error_iff :
    readExpression body = .error fault ↔ Malformed fault.message body := by
  refine ⟨malformed_of_readExpression, fun h => ?_⟩
  obtain ⟨fault', hmessage, hread⟩ := h.exists_readExpression
  rwa [← Fault.eq_of_message_eq hmessage]

/-! ## What a scan goes over -/

/-- A scan goes over `before` to come to `rest`: over characters at which no expression opens, and
over complete expressions. -/
inductive Passes (rest : List Char) : List Char → Prop
  | nil : Passes rest []
  | character {c : Char} {before : List Char} (h : ¬Opens (c :: (before ++ rest)))
    (htail : Passes rest before) : Passes rest (c :: before)
  | expression {s : Segment} {before : List Char} (htext : s.isText = false) (hregular : s.Regular)
    (htail : Passes rest before) : Passes rest (s.source.toList ++ before)

/-- A literal is gone over character by character. -/
theorem Passes.literal {literal : List Char} (hliteral : ¬HasOpener literal)
    (hends : EndsLiteral (before ++ rest)) (h : Passes rest before) :
    Passes rest (literal ++ before) := by
  induction literal with
  | nil => exact h
  | cons c literal ih =>
    have hopens := not_opens_append hliteral (List.cons_ne_nil c literal) hends
    refine .character (fun h => hopens ?_) (ih fun h => hliteral (List.infix_cons h))
    simpa using h

theorem Begins.passes (hbegins : Begins s cs (before ++ rest)) (h : Passes rest before) :
    Passes rest (s.source.toList ++ before) := by
  cases htext : s.isText with
  | false => exact .expression htext hbegins.regular h
  | true =>
    cases s with
    | text literal => exact .literal hbegins.regular.2 (hbegins.ends rfl) h
    | reference name => cases htext
    | referenceOr name default => cases htext

/-- A character at which no expression opens only puts off how a scan ends. -/
theorem failure_scan_cons {c : Char} (h : ¬Opens (c :: cs)) (offset : Nat) :
    (scan offset (c :: cs)).failure = (scan (offset + c.utf8Size) cs).failure := by
  by_cases hends : EndsLiteral cs
  · have hsplit : splitLiteral (c :: cs) = ([c], cs) :=
      splitLiteral_eq_iff.2 ⟨rfl, fun h => by simpa using h.length_le, hends⟩
    rw [scan_literal h (List.cons_ne_nil c cs) hsplit]
    simp
  · obtain ⟨hne, hopens⟩ := not_or.1 hends
    rw [scan_literal h (List.cons_ne_nil c cs) (splitLiteral_cons h),
      scan_literal hopens hne (Prod.eta (splitLiteral cs)).symm]
    simp [String.ofList_cons, Nat.add_assoc]

/-- **How a scan ends is decided behind what it goes over.** -/
theorem Passes.failure_scan (h : Passes rest before) (offset : Nat) :
    (scan offset (before ++ rest)).failure =
      (scan (offset + (String.ofList before).utf8ByteSize) rest).failure := by
  induction h generalizing offset with
  | nil => simp
  | character hopens _ ih =>
    rw [List.cons_append, failure_scan_cons hopens, ih]
    simp [String.ofList_cons, Nat.add_assoc]
  | @expression s before htext hregular _ ih =>
    have hbegins : Begins s (s.source.toList ++ before ++ rest) (before ++ rest) :=
      ⟨hregular, List.append_assoc _ _ _, fun h => by rw [htext] at h; cases h⟩
    rw [scan_of_begins hbegins]
    dsimp only
    rw [ih]
    simp [Nat.add_assoc]

/-- An opener does not begin with the second character of another one, so the opener that ends a
literal before `rest` is not split by it. -/
theorem EndsLiteral.of_append (h : EndsLiteral (before ++ rest)) (hrest : Opens rest) :
    EndsLiteral before := by
  obtain ⟨body, rfl⟩ := opens_iff.1 hrest
  match before with
  | [] => exact .inl rfl
  | [c] => simp [EndsLiteral, Opens] at h
  | c :: c' :: before => simpa [EndsLiteral, Opens] using h

theorem Begins.of_append (h : Begins s cs (before ++ rest)) (hrest : Opens rest) :
    Begins s (s.source.toList ++ before) before :=
  ⟨h.regular, rfl, fun htext => (h.ends htext).of_append hrest⟩

/-- A scan that fails has come to an incomplete expression, and has read the segments before it. -/
theorem exists_passes_of_failure {e : SyntaxError} (h : (scan offset cs).failure = some e) :
    ∃ before body, cs = before ++ '$' :: '{' :: body ∧ Passes ('$' :: '{' :: body) before ∧
      readExpression body = .error e.fault ∧
      e.offset = offset + (String.ofList before).utf8ByteSize ∧
      Written offset (scan offset cs).events before := by
  induction hn : cs.length using Nat.strongRecOn generalizing offset cs with
  | ind n ih =>
    by_cases hne : cs = []
    · subst hne
      rw [scan_nil] at h
      cases h
    rcases begins_or_malformed hne with ⟨s, tail, hbegins⟩ | ⟨body, fault, rfl, hread⟩
    · rw [scan_of_begins hbegins] at h ⊢
      have hlt := hbegins.length_lt
      obtain ⟨before, body, rfl, hpasses, hread, hoffset, hwritten⟩ := ih _ (by omega) h rfl
      refine ⟨s.source.toList ++ before, body, ?_, ?_, hread, ?_, ?_⟩
      · rw [hbegins.source, List.append_assoc]
      · exact hbegins.passes hpasses
      · rw [hoffset, String.ofList_append, String.utf8ByteSize_append, String.ofList_toList,
          Nat.add_assoc]
      · exact .cons (hbegins.of_append ⟨body, rfl⟩) hwritten
    · rw [scan_malformed hread] at h ⊢
      cases h
      exact ⟨[], body, rfl, .nil, hread, by simp, .nil⟩

/-! ## Templates -/

/-- A place where an expression opens and is incomplete: behind `before`, over which a scan goes, with
`body` behind the opener. The error `e` is about this place. -/
structure StopsAt (template : String) (e : SyntaxError) (before body : String) : Prop where
  template_eq : template = before ++ "$\x7b" ++ body
  passes : Passes ('$' :: '{' :: body.toList) before.toList
  malformed : Malformed e.fault.message body.toList
  offset_eq : e.offset = before.utf8ByteSize

variable {template left right : String} {e : SyntaxError}

theorem StopsAt.toList_eq (h : StopsAt template e left right) :
    template.toList = left.toList ++ '$' :: '{' :: right.toList := by
  simp [h.template_eq]

theorem StopsAt.failure_stream (h : StopsAt template e left right) :
    (stream template).failure = some e := by
  have hne : template ≠ "" := by
    rintro rfl
    simpa using h.toList_eq
  rw [stream_of_ne_empty hne, h.toList_eq, h.passes.failure_scan, String.ofList_toList,
    scan_malformed (readExpression_eq_error_iff.2 h.malformed), Nat.zero_add, ← h.offset_eq]

theorem exists_stopsAt_of_failure (h : (stream template).failure = some e) :
    ∃ left right, StopsAt template e left right ∧
      Written 0 (stream template).events left.toList := by
  have hne : template ≠ "" := by
    rintro rfl
    cases h
  rw [stream_of_ne_empty hne] at h ⊢
  obtain ⟨before, body, hcs, hpasses, hread, hoffset, hwritten⟩ := exists_passes_of_failure h
  refine ⟨String.ofList before, String.ofList body, ⟨?_, ?_, ?_, ?_⟩, ?_⟩
  · rw [← String.toList_inj, hcs]
    simp
  · simpa using hpasses
  · simpa using readExpression_eq_error_iff.1 hread
  · simpa using hoffset
  · simpa using hwritten

theorem tokenize_eq_error_iff_failure :
    tokenize template = .error e ↔ (stream template).failure = some e := by
  unfold tokenize
  rcases stream template with ⟨events, _ | e'⟩ <;> simp

/-- Starts of one list with the same number of bytes are the same. -/
theorem eq_of_utf8ByteSize_eq {as bs xs ys : List Char} (h : as ++ xs = bs ++ ys)
    (hsize : (String.ofList as).utf8ByteSize = (String.ofList bs).utf8ByteSize) : as = bs := by
  have hnil {cs mid : List Char}
      (h : (String.ofList cs).utf8ByteSize = (String.ofList (cs ++ mid)).utf8ByteSize) : mid = [] := by
    rw [String.ofList_append, String.utf8ByteSize_append, Nat.left_eq_add,
      String.utf8ByteSize_eq_zero_iff, String.ofList_eq_empty_iff] at h
    exact h
  rcases List.append_eq_append_iff.1 h with ⟨mid, rfl, -⟩ | ⟨mid, rfl, -⟩
  · rw [hnil hsize, List.append_nil]
  · rw [hnil hsize.symm, List.append_nil]

/-- **There is at most one such place.** -/
theorem StopsAt.unique {e' : SyntaxError} {left' right' : String}
    (h : StopsAt template e left right) (h' : StopsAt template e' left' right') :
    left' = left ∧ e' = e := by
  have he : e' = e := Option.some.inj (h'.failure_stream.symm.trans h.failure_stream)
  subst he
  refine ⟨String.toList_inj.1 (eq_of_utf8ByteSize_eq (h'.toList_eq.symm.trans h.toList_eq) ?_), rfl⟩
  rw [String.ofList_toList, String.ofList_toList, ← h'.offset_eq, h.offset_eq]

/-- What is known of a template that a scan does not get through. -/
structure Stopped (template : String) (e : SyntaxError) (left : String) : Prop where
  /-- It stops at one place only. -/
  only : ∀ e' left' right', StopsAt template e' left' right' → left' = left ∧ e' = e
  /-- What is before this place is well formed. -/
  accepted : ∃ events, tokenize left = .ok events
  /-- A handler that accepts everything is handed the events of this, and then the error; it is
  handed none if nothing is before the place. -/
  delivered : ∀ {ε σ : Type} (handle : Event → EStateM ε σ Unit) (refuse : SyntaxError → ε),
    Accepts handle → ∀ start, ∃ events after,
      (left = "" ∧ events = [] ∨ left ≠ "" ∧ tokenize left = .ok events) ∧
        Hands handle events start after ∧
        parseWith handle refuse template start = .error (refuse e) after

theorem StopsAt.stopped (h : StopsAt template e left right) : Stopped template e left := by
  obtain ⟨left', right', h', hwritten⟩ := exists_stopsAt_of_failure h.failure_stream
  obtain ⟨rfl, -⟩ := h.unique h'
  have htokenize (hne : left' ≠ "") : tokenize left' = .ok (stream template).events := by
    rw [tokenize_eq_ok_iff_stream, stream_of_ne_empty hne, scan_eq_iff]
    exact hwritten
  refine ⟨fun e' left right' h' => h.unique h', ?_, fun handle refuse haccepts start => ?_⟩
  · by_cases hempty : left' = ""
    · exact ⟨_, hempty ▸ tokenize_empty⟩
    · exact ⟨_, htokenize hempty⟩
  · obtain ⟨after, hands, hresult⟩ := haccepts.handOver_eq refuse (stream template) start
    rw [h.failure_stream] at hresult
    refine ⟨_, after, ?_, hands, (parseWith_eq_handOver_stream handle refuse template) ▸ hresult⟩
    by_cases hempty : left' = ""
    · subst hempty
      exact .inl ⟨rfl, hwritten.eq_nil⟩
    · exact .inr ⟨hempty, htokenize hempty⟩

/-- **A template is malformed exactly if a scan comes to an incomplete expression.** The error is
about that expression, and what is before it is read as a template of its own. -/
theorem tokenize_eq_error_iff (template : String) (e : SyntaxError) :
    (tokenize template = .error e ↔ ∃ left right, StopsAt template e left right) ∧
      ∀ left right, StopsAt template e left right → Stopped template e left := by
  refine ⟨?_, fun left right h => h.stopped⟩
  rw [tokenize_eq_error_iff_failure]
  constructor
  · intro h
    obtain ⟨left, right, hstops, -⟩ := exists_stopsAt_of_failure h
    exact ⟨left, right, hstops⟩
  · rintro ⟨left, right, hstops⟩
    exact hstops.failure_stream

/-- A `$` that opens nothing, an expression with a colon in its default, and a wrong operator. -/
def exampleMalformed : String := "$$\x7bA:-b:c\x7d/$\x7bD:+\x7d"

theorem stopped_exampleMalformed :
    StopsAt exampleMalformed ⟨.invalid, 11⟩ "$$\x7bA:-b:c\x7d/" "D:+\x7d" ∧
      tokenize exampleMalformed = .error ⟨.invalid, 11⟩ ∧
      Stopped exampleMalformed ⟨.invalid, 11⟩ "$$\x7bA:-b:c\x7d/" := by
  have hpasses : Passes ['$', '{', 'D', ':', '+', '}']
      ('$' :: ((Segment.referenceOr "A" "b:c").source.toList ++ ['/'])) := by
    refine .character ?_ (.expression rfl ?_ (.character ?_ .nil))
    · unfold Opens; decide
    · unfold Segment.Regular; decide
    · unfold Opens; decide
  have hmalformed : Malformed "Invalid variable expression" (['D'] ++ ':' :: ['+', '}']) :=
    .operator (by decide) (by decide) (by decide)
  have hstops : StopsAt exampleMalformed ⟨.invalid, 11⟩ "$$\x7bA:-b:c\x7d/" "D:+\x7d" :=
    ⟨by decide, hpasses, hmalformed, by decide⟩
  have hexample := tokenize_eq_error_iff exampleMalformed ⟨.invalid, 11⟩
  exact ⟨hstops, hexample.1.2 ⟨_, _, hstops⟩, hexample.2 _ _ hstops⟩

end Wiring.Template
