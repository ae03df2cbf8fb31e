import Wiring.Proofs.Order.UntilFailure
import Wiring.Proofs.Template.Malformed
import Wiring.Template.Expansion

/-!
# Expansion while reading

A template is expanded while it is read: a handler writes down what each event stands for. What comes
of it can be told in two phases, with all events known before the first of them is expanded. The
events of a malformed template are those of what comes before the malformed expression, so of a
variable that cannot be resolved and a malformed expression the first one counts.
-/

namespace Wiring.Template

variable {s : Sources} {template name text : String} {segment : Segment} {error : Error}
  {events : List Event} {failure : Option SyntaxError}

/-! ## What a segment stands for -/

/-- The variable is one of the environment or a property, and has this value, if it has any. -/
inductive Refers (s : Sources) : String → Option String → Prop
  | environment (key : String) : Refers s ("env." ++ key) (s.environment key)
  | property (key : String) : Refers s ("sys." ++ key) (s.properties key)

/-- The text that a segment stands for. A value is taken as it is. -/
inductive Segment.Stands (s : Sources) : Segment → String → Prop
  | text (literal : String) : Stands s (.text literal) literal
  | value {name value : String} (h : Refers s name (some value)) : Stands s (.reference name) value
  | valueOr {name value default : String} (h : Refers s name (some value)) :
    Stands s (.referenceOr name default) value
  | default {name default : String} (h : Refers s name none) :
    Stands s (.referenceOr name default) default

/-- A segment that stands for nothing, and what is said about it. A default makes up for a value, but
not for a variable of another kind. -/
inductive Segment.Unresolvable (s : Sources) : Segment → Error → Prop
  | unset {name : String} (h : Refers s name none) : Unresolvable s (.reference name)
    (.unresolvedVariable name "no value is set and no default was given")
  | foreign {name : String} (h : ∀ value, ¬Refers s name value) : Unresolvable s (.reference name)
    (.unresolvedVariable name "expected an 'env.' or 'sys.' prefix")
  | foreignOr {name default : String} (h : ∀ value, ¬Refers s name value) :
    Unresolvable s (.referenceOr name default)
      (.unresolvedVariable name "expected an 'env.' or 'sys.' prefix")

theorem lookup_eq_ok_iff {value : Option String} : s.lookup name = .ok value ↔ Refers s name value := by
  constructor
  · intro h
    unfold Sources.lookup at h
    split at h
    · next key hname =>
      cases h
      obtain rfl : name = "env." ++ String.ofList key := by
        rw [← String.toList_inj, hname]
        simp
      exact .environment _
    · next key hname =>
      cases h
      obtain rfl : name = "sys." ++ String.ofList key := by
        rw [← String.toList_inj, hname]
        simp
      exact .property _
    · cases h
  · intro h
    cases h with
    | environment key => simp [Sources.lookup]
    | property key => simp [Sources.lookup]

/-- There is one way only for a lookup to fail. -/
theorem eq_of_lookup_eq_error (h : s.lookup name = .error error) :
    error = .unresolvedVariable name "expected an 'env.' or 'sys.' prefix" := by
  unfold Sources.lookup at h
  split at h <;> cases h
  rfl

theorem lookup_eq_error_iff :
    s.lookup name = .error error ↔ (∀ value, ¬Refers s name value) ∧
      error = .unresolvedVariable name "expected an 'env.' or 'sys.' prefix" := by
  simp only [← lookup_eq_ok_iff]
  constructor
  · intro h
    refine ⟨fun value hvalue => ?_, eq_of_lookup_eq_error h⟩
    rw [h] at hvalue
    cases hvalue
  · rintro ⟨hnone, rfl⟩
    cases hlookup : s.lookup name with
    | ok value => exact absurd hlookup (hnone value)
    | error e => rw [eq_of_lookup_eq_error hlookup]

/-- What takes the place of a segment is what the segment stands for. -/
theorem Segment.expand_eq_ok_iff : segment.expand s = .ok text ↔ segment.Stands s text := by
  cases segment with
  | text literal =>
    rw [expand, Except.ok.injEq]
    constructor
    · rintro rfl
      exact .text literal
    · rintro ⟨⟩
      rfl
  | reference name =>
    rw [expand, bind_eq_ok_iff]
    simp only [lookup_eq_ok_iff]
    constructor
    · rintro ⟨value, hvalue, h⟩
      cases value with
      | none => cases h
      | some value =>
        cases h
        exact .value hvalue
    · rintro ⟨⟩
      next hvalue => exact ⟨_, hvalue, rfl⟩
  | referenceOr name default =>
    rw [expand, bind_eq_ok_iff]
    simp only [lookup_eq_ok_iff]
    constructor
    · rintro ⟨value, hvalue, h⟩
      cases h
      cases value with
      | none => exact .default hvalue
      | some value => exact .valueOr hvalue
    · intro h
      cases h with
      | valueOr hvalue => exact ⟨_, hvalue, rfl⟩
      | default hvalue => exact ⟨_, hvalue, rfl⟩

theorem Segment.expand_eq_error_iff :
    segment.expand s = .error error ↔ segment.Unresolvable s error := by
  cases segment with
  | text literal => exact ⟨nofun, nofun⟩
  | reference name =>
    rw [expand, bind_eq_error_iff]
    simp only [lookup_eq_ok_iff, lookup_eq_error_iff]
    constructor
    · rintro (⟨hnone, rfl⟩ | ⟨value, hvalue, h⟩)
      · exact .foreign hnone
      · cases value with
        | none =>
          cases h
          exact .unset hvalue
        | some value => cases h
    · intro h
      cases h with
      | unset hvalue => exact .inr ⟨_, hvalue, rfl⟩
      | foreign hnone => exact .inl ⟨hnone, rfl⟩
  | referenceOr name default =>
    rw [expand, bind_eq_error_iff]
    simp only [lookup_eq_ok_iff, lookup_eq_error_iff]
    constructor
    · rintro (⟨hnone, rfl⟩ | ⟨value, hvalue, h⟩)
      · exact .foreignOr hnone
      · cases h
    · intro h
      cases h with
      | foreignOr hnone => exact .inl ⟨hnone, rfl⟩

/-! ## Two phases -/

/-- The events of a template. If it is malformed, they are those of what is before the malformed
expression, and none if nothing is. -/
inductive Reads (template : String) : List Event → Option SyntaxError → Prop
  | whole {events : List Event} (h : tokenize template = .ok events) : Reads template events none
  | upTo {events : List Event} {e : SyntaxError} {accepted rest : String}
    (h : tokenize template = .error e) (hsplit : template = accepted ++ rest)
    (hplace : accepted.utf8ByteSize = e.offset) (hne : accepted ≠ "")
    (haccepted : tokenize accepted = .ok events) : Reads template events (some e)
  | nothing {e : SyntaxError} (h : tokenize template = .error e) (hplace : e.offset = 0) :
    Reads template [] (some e)

/-- These texts are what the events stand for, one after another. -/
def Stand (s : Sources) (events : List Event) (texts : List String) : Prop :=
  List.Forall₂ (fun e text => e.segment.Stands s text) events texts

/-- What comes of a template whose events are known: what all of them stand for, or what the ones
before the first unresolvable event stand for. A malformed expression only counts if none of the
events before it is unresolvable. -/
inductive Expands (s : Sources) (template : String) : Expansion → Prop
  | complete {events : List Event} {texts : List String} (hreads : Reads template events none)
    (htexts : Stand s events texts) : Expands s template ⟨String.join texts, none⟩
  | unresolved {before after : List Event} {e : Event} {failure : Option SyntaxError}
    {texts : List String} {error : Error} (hreads : Reads template (before ++ e :: after) failure)
    (htexts : Stand s before texts) (he : e.segment.Unresolvable s error) :
    Expands s template ⟨String.join texts, some error⟩
  | malformed {events : List Event} {texts : List String} {e : SyntaxError}
    (hreads : Reads template events (some e)) (htexts : Stand s events texts) :
    Expands s template ⟨String.join texts, some (.templateSyntax template e)⟩

/-- What is before the place of a failure is known by its number of bytes. -/
theorem StopsAt.eq_left {e : SyntaxError} {left right accepted rest : String}
    (h : StopsAt template e left right) (hsplit : template = accepted ++ rest)
    (hplace : accepted.utf8ByteSize = e.offset) : accepted = left := by
  have hlist : accepted.toList ++ rest.toList = left.toList ++ '$' :: '{' :: right.toList := by
    rw [← h.toList_eq, hsplit, String.toList_append]
  refine String.toList_inj.1 (eq_of_utf8ByteSize_eq hlist ?_)
  rw [String.ofList_toList, String.ofList_toList, hplace, h.offset_eq]

/-- The events of a template are those of its stream. -/
theorem reads_iff : Reads template events failure ↔ stream template = ⟨events, failure⟩ := by
  constructor
  · intro h
    cases h with
    | whole h => exact tokenize_eq_ok_iff_stream.1 h
    | upTo h hsplit hplace hne haccepted =>
      have hfailure := tokenize_eq_error_iff_failure.1 h
      obtain ⟨left, right, hstops, hwritten⟩ := exists_stopsAt_of_failure hfailure
      obtain rfl := hstops.eq_left hsplit hplace
      -- both are the events of what is before the failure
      rw [tokenize_eq_ok_iff_stream, stream_of_ne_empty hne, scan_eq_iff.2 hwritten] at haccepted
      cases haccepted
      rw [← hfailure]
    | nothing h hplace =>
      have hfailure := tokenize_eq_error_iff_failure.1 h
      obtain ⟨left, right, hstops, hwritten⟩ := exists_stopsAt_of_failure hfailure
      obtain rfl : left = "" := by
        rw [← String.utf8ByteSize_eq_zero_iff, ← hstops.offset_eq, hplace]
      rw [← hwritten.eq_nil, ← hfailure]
  · intro h
    cases failure with
    | none => exact .whole (tokenize_eq_ok_iff_stream.2 h)
    | some e =>
      have hfailure : (stream template).failure = some e := congrArg Stream.failure h
      obtain ⟨left, right, hstops, hwritten⟩ := exists_stopsAt_of_failure hfailure
      have herror := tokenize_eq_error_iff_failure.2 hfailure
      rw [h] at hwritten
      by_cases hempty : left = ""
      · subst hempty
        obtain rfl : events = [] := hwritten.eq_nil
        exact .nothing herror (by simpa using hstops.offset_eq)
      · have hsplit : template = left ++ ("$\x7b" ++ right) := by
          rw [hstops.template_eq, String.append_assoc]
        have haccepted : tokenize left = .ok events := by
          rw [tokenize_eq_ok_iff_stream, stream_of_ne_empty hempty, scan_eq_iff]
          exact hwritten
        exact .upTo herror hsplit hstops.offset_eq.symm hempty haccepted

theorem forall₂_expand_iff {texts : List String} :
    List.Forall₂ (fun e text => e.segment.expand s = .ok text) events texts ↔
      Stand s events texts := by
  simp only [Segment.expand_eq_ok_iff, Stand]

theorem expansion_of_reads (h : Reads template events failure) {texts : List String}
    {unresolved : Option Error}
    (hrun : untilFailure (fun e => e.segment.expand s) events = (texts, unresolved)) :
    expansion s template =
      ⟨String.join texts, unresolved.or (failure.map (.templateSyntax template))⟩ := by
  unfold expansion
  simp only [reads_iff.1 h, hrun]

/-- **What comes of a template**, told in two phases. -/
theorem expansion_eq_iff {x : Expansion} : expansion s template = x ↔ Expands s template x := by
  constructor
  · rintro rfl
    rcases hstream : stream template with ⟨events, failure⟩
    have hreads := reads_iff.2 hstream
    rcases hrun : untilFailure (fun e => e.segment.expand s) events with ⟨texts, unresolved⟩
    rw [expansion_of_reads hreads hrun]
    cases unresolved with
    | none =>
      have htexts := forall₂_expand_iff.1 (untilFailure_eq_iff.1 hrun)
      cases failure with
      | none => exact .complete hreads htexts
      | some e => exact .malformed hreads htexts
    | some error =>
      obtain ⟨before, e, after, rfl, hbefore, he⟩ := untilFailure_eq_some_iff.1 hrun
      exact .unresolved hreads (forall₂_expand_iff.1 hbefore) (Segment.expand_eq_error_iff.1 he)
  · intro h
    cases h with
    | complete hreads htexts =>
      exact expansion_of_reads hreads (untilFailure_eq_iff.2 (forall₂_expand_iff.2 htexts))
    | malformed hreads htexts =>
      exact expansion_of_reads hreads (untilFailure_eq_iff.2 (forall₂_expand_iff.2 htexts))
    | unresolved hreads htexts he =>
      exact expansion_of_reads hreads (untilFailure_eq_some_iff.2
        ⟨_, _, _, rfl, forall₂_expand_iff.2 htexts, Segment.expand_eq_error_iff.2 he⟩)

/-! ## One pass -/

/-- Writes down what an event stands for. -/
def writeDown (s : Sources) (e : Event) : EStateM Error String Unit := do
  let text ← MonadExcept.ofExcept (e.segment.expand s)
  modify (· ++ text)

/-- An error about a template, completed with the template. -/
def inTemplate (template : String) : Error → Error
  | .templateSyntax _ cause => .templateSyntax template cause
  | e => e

/-- Expands a template while it is read. The reader does not know the template as a whole, so the
errors that it reports are completed behind it. -/
def expandReading (s : Sources) (template : String) : EStateM Error String Unit :=
  (parseWith (writeDown s) (.templateSyntax "") template).adaptExcept (inTemplate template)

/-- An expansion as what a computation with the written text as its state ends with. -/
def Expansion.result (x : Expansion) : EStateM.Result Error String Unit :=
  match x.failure with
  | none => .ok () x.written
  | some e => .error e x.written

theorem writeDown_of_ok {e : Event} (h : e.segment.expand s = .ok text) (out : String) :
    writeDown s e out = .ok () (out ++ text) := by
  unfold writeDown
  rw [h]
  rfl

theorem writeDown_of_error {e : Event} (h : e.segment.expand s = .error error) (out : String) :
    writeDown s e out = .error error out := by
  unfold writeDown
  rw [h]
  rfl

/-- Writing down ends with what the events before the first unresolvable one stand for. -/
theorem forM_writeDown {texts : List String} {unresolved : Option Error} (out : String)
    (h : untilFailure (fun e => e.segment.expand s) events = (texts, unresolved)) :
    events.forM (writeDown s) out = Expansion.result ⟨out ++ String.join texts, unresolved⟩ := by
  induction events generalizing out texts with
  | nil =>
    cases h
    simp [Expansion.result]
    rfl
  | cons e events ih =>
    have hcons : (e :: events).forM (writeDown s) =
      writeDown s e >>= fun _ => events.forM (writeDown s) := rfl
    rw [hcons]
    cases he : e.segment.expand s with
    | error error =>
      rw [untilFailure_cons_of_error (f := fun e : Event => e.segment.expand s) he] at h
      cases h
      rw [bind_of_error (writeDown_of_error he out)]
      simp [Expansion.result]
    | ok text =>
      rw [untilFailure_cons_of_ok (f := fun e : Event => e.segment.expand s) he] at h
      obtain ⟨rfl, rfl⟩ := Prod.mk.inj h
      rw [bind_of_ok (writeDown_of_ok he out), ih (out ++ text) rfl, String.join_cons,
        String.append_assoc]

/-- What cannot be resolved is no matter of syntax. -/
theorem Segment.Unresolvable.inTemplate_eq (h : segment.Unresolvable s error) (template : String) :
    inTemplate template error = error := by
  cases h <;> rfl

/-- **Expansion in one pass is expansion in two phases.** -/
theorem expandReading_eq (s : Sources) (template : String) :
    expandReading s template "" = (expansion s template).result := by
  rcases hstream : stream template with ⟨events, failure⟩
  rcases hrun : untilFailure (fun e => e.segment.expand s) events with ⟨texts, unresolved⟩
  have hforM := forM_writeDown "" hrun
  rw [String.empty_append] at hforM
  unfold expandReading
  rw [expansion_of_reads (reads_iff.2 hstream) hrun, parseWith_eq_handOver_stream, hstream,
    EStateM.adaptExcept, Stream.handOver]
  cases unresolved with
  | some error =>
    obtain ⟨_, e, _, _, _, he⟩ := untilFailure_eq_some_iff.1 hrun
    have herror := (Segment.expand_eq_error_iff.1 he).inTemplate_eq template
    rw [bind_of_error hforM]
    simp [Expansion.result, herror]
  | none =>
    rw [bind_of_ok hforM]
    cases failure with
    | none => rfl
    | some e => rfl

theorem Expansion.result_eq_ok_iff {x : Expansion} {written : String} :
    x.result = .ok () written ↔ x = ⟨written, none⟩ := by
  rcases x with ⟨text, _ | error⟩ <;> simp [result]

theorem Expansion.result_eq_error_iff {x : Expansion} {written : String} :
    x.result = .error error written ↔ x = ⟨written, some error⟩ := by
  rcases x with ⟨text, _ | error⟩ <;> simp [result, and_comm]

/-- **A template is expanded in one pass as in two.** What has been written by the time of a failure
is what the events before it stand for. -/
theorem expandReading_iff_expands (s : Sources) (template : String) :
    (∀ written, expandReading s template "" = .ok () written ↔
      Expands s template ⟨written, none⟩) ∧
    (∀ error written, expandReading s template "" = .error error written ↔
      Expands s template ⟨written, some error⟩) ∧
    (∀ text, expand s template = .ok text ↔ Expands s template ⟨text, none⟩) ∧
    ∀ error, expand s template = .error error ↔
      ∃ written, Expands s template ⟨written, some error⟩ := by
  simp only [expandReading_eq, Expansion.result_eq_ok_iff, Expansion.result_eq_error_iff,
    ← expansion_eq_iff, implies_true, true_and]
  unfold expand
  rcases expansion s template with ⟨written, _ | error⟩ <;> simp

/-- A value is not expanded again, and a variable of another kind is reported before the malformed
expression behind it. -/
example :
    expansion ⟨fun _ => some "$\x7bsys.b\x7d", fun _ => none⟩ "$\x7benv.a\x7d/$\x7bc:-d\x7d$\x7b" =
      ⟨"$\x7bsys.b\x7d/", some (.unresolvedVariable "c" "expected an 'env.' or 'sys.' prefix")⟩ := by
  cbv

end Wiring.Template
