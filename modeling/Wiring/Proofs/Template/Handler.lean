import Wiring.Proofs.Except
import Wiring.Proofs.Template.Tokenize

/-!
# Handlers

A template can be read for a handler, which is handed each event as soon as that is read. The events
do not depend on what the handler does with them. So a handler is handed the events of the stream, up
to the first one that it does not accept, and hears of the failure of the stream if it accepts all.
-/

namespace Wiring.Template

variable {ε σ : Type} {handle : Event → EStateM ε σ Unit} {refuse : SyntaxError → ε}

/-- Reads `cs`, the part of a template after its first `offset` bytes, for a handler. -/
def readFor (handle : Event → EStateM ε σ Unit) (refuse : SyntaxError → ε) (offset : Nat)
    (cs : List Char) : EStateM ε σ Unit :=
  match cs with
  | [] => return
  | '$' :: '{' :: body =>
    match h : readExpression body with
    | .error fault => throw (refuse ⟨fault, offset⟩)
    | .ok (segment, rest) =>
      have := length_lt_of_readExpression h
      do
        handle ⟨offset, segment⟩
        readFor handle refuse (offset + segment.source.utf8ByteSize) rest
  | c :: cs =>
    let literal := String.ofList (c :: (splitLiteral cs).1)
    have : (splitLiteral cs).2.length ≤ cs.length := by
      have := congrArg List.length (splitLiteral_append cs)
      simp at this; omega
    do
      handle ⟨offset, .text literal⟩
      readFor handle refuse (offset + literal.utf8ByteSize) (splitLiteral cs).2
termination_by cs.length

/-- Reads a template for a handler. The empty template is one empty text. -/
def parseWith (handle : Event → EStateM ε σ Unit) (refuse : SyntaxError → ε) (template : String) :
    EStateM ε σ Unit :=
  match template.toList with
  | [] => handle ⟨0, .text ""⟩
  | cs => readFor handle refuse 0 cs

/-- Hands over the events of a stream, and then its failure if there is one. -/
def Stream.handOver (handle : Event → EStateM ε σ Unit) (refuse : SyntaxError → ε) (s : Stream) :
    EStateM ε σ Unit := do
  s.events.forM handle
  match s.failure with
  | none => return
  | some e => throw (refuse e)

theorem Stream.handOver_cons (e : Event) (s : Stream) :
    Stream.handOver handle refuse ⟨e :: s.events, s.failure⟩ =
      handle e >>= fun _ => s.handOver handle refuse := by
  unfold handOver
  simp

theorem readFor_eq_handOver_scan (offset : Nat) (cs : List Char) :
    readFor handle refuse offset cs = (scan offset cs).handOver handle refuse := by
  fun_induction readFor handle refuse offset cs with
  | case1 => rw [scan_nil]; rfl
  | case2 offset body fault h => rw [scan_malformed h]; rfl
  | case3 offset body s rest h _ ih => rw [scan_expression h, Stream.handOver_cons, ih]
  | case4 offset c cs hopener literal _ ih =>
    have hopens : ¬Opens (c :: cs) := not_opens_cons hopener
    rw [scan_literal hopens (List.cons_ne_nil c cs) (splitLiteral_cons hopens),
      Stream.handOver_cons, ih]

/-- **A handler is handed the stream.** -/
theorem parseWith_eq_handOver_stream (handle : Event → EStateM ε σ Unit)
    (refuse : SyntaxError → ε) (template : String) :
    parseWith handle refuse template = (stream template).handOver handle refuse := by
  unfold parseWith stream
  cases template.toList with
  | nil => simp [Stream.handOver]
  | cons c cs => exact readFor_eq_handOver_scan 0 (c :: cs)

/-! ## Handlers that accept everything -/

/-- Whatever the handler is handed, and in whatever state, it does not fail. -/
def Accepts (handle : Event → EStateM ε σ Unit) : Prop :=
  ∀ e before, ∃ after, handle e before = .ok () after

/-- The handler gets from one state to another by these events. -/
def Hands (handle : Event → EStateM ε σ Unit) (events : List Event) (before after : σ) : Prop :=
  events.forM handle before = .ok () after

theorem Accepts.exists_hands (h : Accepts handle) (events : List Event) (before : σ) :
    ∃ after, Hands handle events before after := by
  induction events generalizing before with
  | nil => exact ⟨before, rfl⟩
  | cons e events ih =>
    obtain ⟨between, hfirst⟩ := h e before
    obtain ⟨after, hrest⟩ := ih between
    exact ⟨after, (bind_of_ok hfirst).trans hrest⟩

/-- **A handler that accepts everything gets all events before the failure**, and the failure. -/
theorem Accepts.handOver_eq (h : Accepts handle) (refuse : SyntaxError → ε) (s : Stream)
    (before : σ) :
    ∃ after, Hands handle s.events before after ∧
      s.handOver handle refuse before =
        match s.failure with
        | none => .ok () after
        | some e => .error (refuse e) after := by
  obtain ⟨after, hafter⟩ := h.exists_hands s.events before
  refine ⟨after, hafter, ?_⟩
  rw [Stream.handOver, bind_of_ok hafter]
  cases s.failure <;> rfl

end Wiring.Template
