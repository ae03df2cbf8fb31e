import Mathlib.Data.List.Chain
import Wiring.Proofs.Template.Segment

/-!
# Tokens and templates

The events of a template are its segments from the left, each at the number of bytes before it.
Which lists of events are those of a template can be said of the lists alone, and a template can be
put together again from its events; so tokenizing is a bijection between the well-formed templates
and these lists.
-/

namespace Wiring.Template

variable {cs rest : List Char} {s : Segment} {offset : Nat} {events : List Event}

/-! ## One step of a scan -/

theorem scan_nil (offset : Nat) : scan offset [] = ⟨[], none⟩ := by
  rw [scan]

theorem scan_expression {body : List Char} (h : readExpression body = .ok (s, rest))
    (offset : Nat) :
    scan offset ('$' :: '{' :: body) =
      ⟨⟨offset, s⟩ :: (scan (offset + s.source.utf8ByteSize) rest).events,
        (scan (offset + s.source.utf8ByteSize) rest).failure⟩ := by
  rw [scan]
  split
  · next fault herror =>
    rw [h] at herror
    cases herror
  · next segment rest' hok =>
    rw [h] at hok
    cases hok
    rfl

theorem scan_malformed {body : List Char} {fault : Fault} (h : readExpression body = .error fault)
    (offset : Nat) : scan offset ('$' :: '{' :: body) = ⟨[], some ⟨fault, offset⟩⟩ := by
  rw [scan]
  split
  · next fault' herror =>
    rw [h] at herror
    cases herror
    rfl
  · next segment rest' hok =>
    rw [h] at hok
    cases hok

theorem scan_literal {literal : List Char} (hopens : ¬Opens cs) (hne : cs ≠ [])
    (h : splitLiteral cs = (literal, rest)) (offset : Nat) :
    scan offset cs =
      ⟨⟨offset, .text (String.ofList literal)⟩ ::
          (scan (offset + (String.ofList literal).utf8ByteSize) rest).events,
        (scan (offset + (String.ofList literal).utf8ByteSize) rest).failure⟩ := by
  obtain ⟨c, cs, rfl⟩ := List.exists_cons_of_ne_nil hne
  rw [splitLiteral_cons hopens] at h
  cases h
  rw [scan]
  rintro body rfl rfl
  exact hopens ⟨body, rfl⟩

/-- **The scan takes the first segment** and goes on with the rest. -/
theorem scan_of_begins (h : Begins s cs rest) (offset : Nat) :
    scan offset cs =
      ⟨⟨offset, s⟩ :: (scan (offset + s.source.utf8ByteSize) rest).events,
        (scan (offset + s.source.utf8ByteSize) rest).failure⟩ := by
  cases htext : s.isText with
  | false =>
    obtain ⟨body, rfl⟩ := opens_iff.1 (h.opens_iff_not_text.2 htext)
    exact scan_expression (readExpression_eq_ok_iff.2 ⟨htext, h.regular, h.source⟩) offset
  | true =>
    have hopens : ¬Opens cs := fun hopens => by
      rw [h.opens_iff_not_text.1 hopens] at htext
      cases htext
    have hne : cs ≠ [] := List.ne_nil_of_length_pos (Nat.zero_lt_of_lt h.length_lt)
    obtain ⟨hregular, hsource, hends⟩ := h
    cases s with
    | text literal =>
      have hsplit := splitLiteral_eq_iff.2 ⟨hsource, hregular.2, hends rfl⟩
      have hscan := scan_literal hopens hne hsplit offset
      rwa [String.ofList_toList] at hscan
    | reference name => cases htext
    | referenceOr name default => cases htext

/-- A scan starts with a segment, unless the template ends there or is malformed. -/
theorem begins_or_malformed (hne : cs ≠ []) :
    (∃ s rest, Begins s cs rest) ∨
      ∃ body fault, cs = '$' :: '{' :: body ∧ readExpression body = .error fault := by
  by_cases hopens : Opens cs
  · obtain ⟨body, rfl⟩ := opens_iff.1 hopens
    cases hread : readExpression body with
    | error fault => exact .inr ⟨body, fault, rfl, hread⟩
    | ok read =>
      obtain ⟨s, rest⟩ := read
      obtain ⟨htext, hregular, hsource⟩ := readExpression_eq_ok_iff.1 hread
      refine .inl ⟨s, rest, hregular, hsource, fun h => ?_⟩
      rw [htext] at h
      cases h
  · obtain ⟨hsource, hliteral, hends⟩ := splitLiteral_eq_iff.1 (Prod.eta (splitLiteral cs))
    refine .inl ⟨.text (String.ofList (splitLiteral cs).1), _, ⟨?_, ?_⟩, ?_, fun _ => hends⟩
    · intro hempty
      rw [String.ofList_eq_empty_iff] at hempty
      rw [hempty] at hsource
      rcases hends with hnil | hrest
      · rw [hnil] at hsource
        exact hne hsource
      · rw [hsource] at hopens
        exact hopens hrest
    · rwa [String.toList_ofList]
    · rwa [Segment.source, String.toList_ofList]

/-! ## Scans -/

/-- The events are those of the segments from the first character of `cs` to its end. -/
inductive Written : Nat → List Event → List Char → Prop
  | nil {offset : Nat} : Written offset [] []
  | cons {offset : Nat} {s : Segment} {cs rest : List Char} {events : List Event}
      (h : Begins s cs rest) (htail : Written (offset + s.source.utf8ByteSize) events rest) :
      Written offset (⟨offset, s⟩ :: events) cs

/-- A text ends where the events behind it do not begin with another text. -/
theorem Written.endsLiteral_iff (h : Written offset events cs) :
    EndsLiteral cs ↔ ∀ e ∈ events.head?, e.segment.isText = false := by
  cases h with
  | nil => exact iff_of_true (.inl rfl) nofun
  | @cons _ s _ rest _ hbegins _ =>
    have hne : cs ≠ [] := List.ne_nil_of_length_pos (Nat.zero_lt_of_lt hbegins.length_lt)
    simp [EndsLiteral, hne, hbegins.opens_iff_not_text]

theorem written_of_failure (h : (scan offset cs).failure = none) :
    Written offset (scan offset cs).events cs := by
  induction hn : cs.length using Nat.strongRecOn generalizing offset cs with
  | ind n ih =>
    by_cases hne : cs = []
    · subst hne
      rw [scan_nil]
      exact .nil
    · rcases begins_or_malformed hne with ⟨s, rest, hbegins⟩ | ⟨body, fault, rfl, hread⟩
      · rw [scan_of_begins hbegins] at h ⊢
        have hlt := hbegins.length_lt
        exact .cons hbegins (ih _ (by omega) h rfl)
      · rw [scan_malformed hread] at h
        cases h

/-- **A scan without a failure writes down the segments.** -/
theorem scan_eq_iff : scan offset cs = ⟨events, none⟩ ↔ Written offset events cs := by
  constructor
  · intro h
    have hwritten := written_of_failure (congrArg Stream.failure h)
    rwa [h] at hwritten
  · intro h
    induction h with
    | nil => exact scan_nil _
    | cons h _ ih => rw [scan_of_begins h, ih]

/-! ## Canonical events -/

/-- The template that some events are those of. -/
def source (events : List Event) : String := String.join (events.map (·.segment.source))

/-- What the events of a template are, said of the events: no text is empty, contains an opener or
stands next to another one, a name ends before the first `:` or `}` and a default before the first
`}`, and each event is at the number of bytes of the segments before it. -/
structure Canonical (events : List Event) : Prop where
  ne_nil : events ≠ []
  regular : ∀ e ∈ events, e.segment.Regular
  separated : events.IsChain fun e f => ¬(e.segment.isText = true ∧ f.segment.isText = true)
  offset_eq : ∀ i (h : i < events.length),
    (events[i]).offset = (source (events.take i)).utf8ByteSize

theorem source_cons (e : Event) (events : List Event) :
    source (e :: events) = e.segment.source ++ source events := by
  rw [source, List.map_cons, String.join_cons, source]

/-- **Segments that are written down can be told by the events alone.** -/
theorem written_iff :
    Written offset events cs ↔
      cs = (source events).toList ∧ (∀ e ∈ events, e.segment.Regular) ∧
        (events.IsChain fun e f => ¬(e.segment.isText = true ∧ f.segment.isText = true)) ∧
        ∀ i (h : i < events.length),
          (events[i]).offset = offset + (source (events.take i)).utf8ByteSize := by
  induction events generalizing offset cs with
  | nil =>
    constructor
    · intro h
      cases h
      simp [source]
    · rintro ⟨rfl, -⟩
      exact .nil
  | cons e events ih =>
    rw [List.forall_mem_cons, List.isChain_cons, source_cons, String.toList_append]
    constructor
    · intro h
      cases h with
      | @cons _ s _ rest _ hbegins htail =>
        obtain ⟨hrest, hregular, hchain, hoffset⟩ := ih.1 htail
        refine ⟨hrest ▸ hbegins.source, ⟨hbegins.regular, hregular⟩, ⟨?_, hchain⟩, ?_⟩
        · rintro f hf ⟨hs, hf'⟩
          rw [htail.endsLiteral_iff.1 (hbegins.ends hs) f hf] at hf'
          cases hf'
        · intro i hi
          cases i with
          | zero => simp [source]
          | succ i =>
            have := hoffset i (by simpa using hi)
            simp [source_cons, this, Nat.add_assoc]
    · rintro ⟨rfl, ⟨hfirst, hregular⟩, ⟨hhead, hchain⟩, hoffset⟩
      have htail :
          Written (offset + e.segment.source.utf8ByteSize) events (source events).toList := by
        refine ih.2 ⟨rfl, hregular, hchain, fun i hi => ?_⟩
        have := hoffset (i + 1) (by simpa using hi)
        simpa [source_cons, Nat.add_assoc] using this
      have hplace : e.offset = offset :=
        (hoffset 0 (Nat.zero_lt_succ _)).trans (by simp [source])
      have hends : e.segment.isText = true → EndsLiteral (source events).toList := fun htext =>
        htail.endsLiteral_iff.2 fun f hf => by simpa [htext] using hhead f hf
      obtain ⟨offset, s⟩ := e
      cases hplace
      exact .cons ⟨hfirst, rfl, hends⟩ htail

theorem canonical_iff :
    Canonical events ↔ events ≠ [] ∧ Written 0 events (source events).toList := by
  rw [written_iff]
  simp only [Nat.zero_add, true_and]
  exact ⟨fun h => ⟨h.ne_nil, h.regular, h.separated, h.offset_eq⟩,
    fun ⟨hne, hregular, hseparated, hoffset⟩ => ⟨hne, hregular, hseparated, hoffset⟩⟩

theorem canonical_text {literal : String} :
    Canonical [⟨0, .text literal⟩] ↔ literal ≠ "" ∧ ¬HasOpener literal.toList := by
  constructor
  · intro h
    exact h.regular _ List.mem_cons_self
  · intro h
    refine ⟨List.cons_ne_nil _ _, by simpa [Segment.Regular] using h, List.isChain_singleton _, ?_⟩
    intro i hi
    obtain rfl : i = 0 := by simpa using hi
    simp [source]

/-! ## Templates -/

theorem tokenize_eq_ok_iff_stream {template : String} :
    tokenize template = .ok events ↔ stream template = ⟨events, none⟩ := by
  unfold tokenize
  rcases stream template with ⟨events', _ | e⟩ <;> simp

theorem tokenize_empty : tokenize "" = .ok [⟨0, .text ""⟩] := rfl

theorem stream_of_ne_empty {template : String} (h : template ≠ "") :
    stream template = scan 0 template.toList := by
  obtain ⟨c, cs, hcs⟩ := List.exists_cons_of_ne_nil (mt String.toList_eq_nil_iff.1 h)
  rw [stream, hcs]

theorem Written.eq_nil (h : Written offset events []) : events = [] := by
  cases h with
  | nil => rfl
  | cons hbegins _ => exact absurd hbegins.length_lt (Nat.not_lt_zero _)

/-- Canonical events are not those of the empty template. -/
theorem Canonical.source_ne_empty (h : Canonical events) : source events ≠ "" := by
  obtain ⟨hne, hwritten⟩ := canonical_iff.1 h
  intro hempty
  rw [hempty] at hwritten
  exact hne hwritten.eq_nil

/-- The events of a template are the canonical events of which it is the source; those of the empty
template are one empty text. -/
theorem tokenize_eq_ok_iff {template : String} :
    tokenize template = .ok events ↔
      (Canonical events ∨ events = [⟨0, .text ""⟩]) ∧ source events = template := by
  have hsource : source [⟨0, .text ""⟩] = "" := rfl
  by_cases hempty : template = ""
  · subst hempty
    rw [tokenize_empty, Except.ok.injEq, eq_comm]
    constructor
    · rintro rfl
      exact ⟨.inr rfl, hsource⟩
    · rintro ⟨hcanonical | hevents, hnil⟩
      · exact absurd hnil hcanonical.source_ne_empty
      · exact hevents
  · rw [tokenize_eq_ok_iff_stream, stream_of_ne_empty hempty, scan_eq_iff]
    constructor
    · intro h
      have hsame : source events = template := (String.toList_inj.1 (written_iff.1 h).1).symm
      refine ⟨.inl (canonical_iff.2 ⟨?_, by rwa [hsame]⟩), hsame⟩
      rintro rfl
      exact hempty hsame.symm
    · rintro ⟨hcanonical | rfl, rfl⟩
      · exact (canonical_iff.1 hcanonical).2
      · exact absurd hsource hempty

theorem hasExpressions_eq_false_iff {template : String} :
    hasExpressions template = false ↔ ¬HasOpener template.toList := by
  obtain ⟨hsource, hliteral, hends⟩ :=
    splitLiteral_eq_iff.1 (Prod.eta (splitLiteral template.toList))
  unfold hasExpressions
  rw [Bool.not_eq_false', List.isEmpty_iff]
  constructor
  · intro hnil
    rwa [hsource, hnil, List.append_nil]
  · intro hnone
    rcases hends with hnil | hopens
    · exact hnil
    · rw [hsource] at hnone
      exact absurd (hopens.hasOpener.trans (List.suffix_append _ _).isInfix) hnone

/-- **Tokenizing is a bijection between the well-formed templates and the canonical events**, with
`source` as its inverse. A template without an opener is its own and only text. -/
theorem tokenize_iff_canonical_source (template : String) (events : List Event) :
    (tokenize template = .ok events ↔
      (Canonical events ∨ events = [⟨0, .text ""⟩]) ∧ source events = template) ∧
    (hasExpressions template = false ↔ tokenize template = .ok [⟨0, .text template⟩]) := by
  refine ⟨tokenize_eq_ok_iff, ?_⟩
  have hsource : source [⟨0, .text template⟩] = template := by simp [source, Segment.source]
  rw [hasExpressions_eq_false_iff, tokenize_eq_ok_iff, canonical_text]
  constructor
  · intro hnone
    by_cases hempty : template = ""
    · exact ⟨.inr (by rw [hempty]), hsource⟩
    · exact ⟨.inl ⟨hempty, hnone⟩, hsource⟩
  · rintro ⟨⟨-, hnone⟩ | hempty, -⟩
    · exact hnone
    · obtain rfl : template = "" := by simpa using hempty
      simp [HasOpener]

end Wiring.Template
