/-!
# Name templates

    template   = { text | "${" name "}" | "${" name ":-" default "}" }

A qualifier's name may hold variable expressions. A name runs to the first `:` or `}`, a default to
the first `}`, and a `$` without a `{` is text. A template is read as a stream of events, each with
the offset in bytes of its first character; the stream ends at the first expression that is not
well formed.
-/

namespace Wiring.Template

/-- A piece of a template. -/
inductive Segment
  | text (literal : String)
  | reference (name : String)
  | referenceOr (name default : String)
deriving DecidableEq, Repr

/-- The characters that a segment stands for in a template. -/
def Segment.source : Segment → String
  | text literal => literal
  | reference name => "$\x7b" ++ name ++ "\x7d"
  | referenceOr name default => "$\x7b" ++ name ++ ":-" ++ default ++ "\x7d"

/-- A segment and the number of bytes before it. -/
structure Event where
  offset : Nat
  segment : Segment
deriving DecidableEq, Repr

/-- What is wrong with an expression. -/
inductive Fault
  | unclosed
  /-- A `:` that does not begin `:-`. -/
  | invalid
deriving DecidableEq, Repr

def Fault.message : Fault → String
  | unclosed => "Unclosed variable expression"
  | invalid => "Invalid variable expression"

/-- A malformed template; `offset` is that of the `$` of the malformed expression. -/
structure SyntaxError where
  fault : Fault
  offset : Nat
deriving DecidableEq, Repr

def SyntaxError.message (e : SyntaxError) : String :=
  e.fault.message ++ " at offset " ++ toString e.offset

/-- The events of a template and the error that ends them, if any does. -/
structure Stream where
  events : List Event
  failure : Option SyntaxError
deriving DecidableEq, Repr

/-- The longest start of `cs` without an expression opener, and the characters from the opener
on. -/
def splitLiteral : List Char → List Char × List Char
  | '$' :: '{' :: rest => ([], '$' :: '{' :: rest)
  | [] => ([], [])
  | c :: cs => (c :: (splitLiteral cs).1, (splitLiteral cs).2)

theorem splitLiteral_append (cs : List Char) :
    (splitLiteral cs).1 ++ (splitLiteral cs).2 = cs := by
  fun_induction splitLiteral cs <;> simp_all

/-- Reads an expression, given the characters after its opener. -/
def readExpression (cs : List Char) : Except Fault (Segment × List Char) :=
  let name := cs.takeWhile fun c => c != ':' && c != '}'
  match cs.dropWhile fun c => c != ':' && c != '}' with
  | '}' :: rest => .ok (.reference (String.ofList name), rest)
  | ':' :: '-' :: rest =>
    let default := rest.takeWhile (· != '}')
    match rest.dropWhile (· != '}') with
    | _ :: after => .ok (.referenceOr (String.ofList name) (String.ofList default), after)
    | [] => .error .unclosed
  | ':' :: _ => .error .invalid
  | _ => .error .unclosed

theorem length_lt_of_readExpression {cs rest : List Char} {s : Segment}
    (h : readExpression cs = .ok (s, rest)) : rest.length ≤ cs.length := by
  have outer := (List.dropWhile_suffix (fun c => c != ':' && c != '}') (l := cs)).length_le
  unfold readExpression at h
  split at h
  · rename_i heq; rw [heq] at outer; cases h; simp at outer; omega
  · rename_i tail heq
    have inner := (List.dropWhile_suffix (· != '}') (l := tail)).length_le
    rw [heq] at outer
    dsimp only at h
    split at h
    · rename_i heq'; rw [heq'] at inner; cases h; simp at outer inner; omega
    · contradiction
  · contradiction
  · contradiction

/-- The events of `cs`, the part of a template after its first `offset` bytes. -/
def scan (offset : Nat) (cs : List Char) : Stream :=
  match cs with
  | [] => ⟨[], none⟩
  | '$' :: '{' :: body =>
    match h : readExpression body with
    | .error fault => ⟨[], some ⟨fault, offset⟩⟩
    | .ok (segment, rest) =>
      have := length_lt_of_readExpression h
      let tail := scan (offset + segment.source.utf8ByteSize) rest
      ⟨⟨offset, segment⟩ :: tail.events, tail.failure⟩
  | c :: cs =>
    let literal := String.ofList (c :: (splitLiteral cs).1)
    have : (splitLiteral cs).2.length ≤ cs.length := by
      have := congrArg List.length (splitLiteral_append cs)
      simp at this; omega
    let tail := scan (offset + literal.utf8ByteSize) (splitLiteral cs).2
    ⟨⟨offset, .text literal⟩ :: tail.events, tail.failure⟩
termination_by cs.length

/-- The stream of a template; that of the empty template is one empty text. -/
def stream (template : String) : Stream :=
  match template.toList with
  | [] => ⟨[⟨0, .text ""⟩], none⟩
  | cs => scan 0 cs

/-- The events of a well-formed template. -/
def tokenize (template : String) : Except SyntaxError (List Event) :=
  let s := stream template
  match s.failure with
  | none => .ok s.events
  | some e => .error e

/-- Whether an expression opener occurs in the template. -/
def hasExpressions (template : String) : Bool :=
  !(splitLiteral template.toList).2.isEmpty

end Wiring.Template
