import Wiring.Proofs.Template.Malformed
import Wiring.Proofs.Text.Bytes

/-!
# Templates read byte by byte

The characters of an expression that are looked for are of ASCII, so a template can be read by its
bytes, and only the pieces handed over are cut out of it. A piece that does not begin and end with a
character cannot be cut out, and a reader that tries has failed for good. This reader does not: it
stops at delimiters only, it cuts where it has stopped, and it does what the reader of characters
does.
-/

namespace Wiring.Template

open String (utf8Len)
open Text (IsBoundary TailAt hasByte slice?)

/-! ## Readings -/

/-- What a reader has done: the slices it took, in order, and the offsets of the events that it
handed over, in order. -/
structure Trace where
  slices : List (Nat × Nat) := []
  offsets : List Nat := []

namespace Trace

def cut (start stop : Nat) (trace : Trace) : Trace :=
  { trace with slices := trace.slices ++ [(start, stop)] }

def hand (offset : Nat) (trace : Trace) : Trace :=
  { trace with offsets := trace.offsets ++ [offset] }

/-- All slices lie in the template, in order and between characters. All events are at characters,
one behind the other. -/
structure Safe (t : String) (trace : Trace) : Prop where
  slices : ∀ slice ∈ trace.slices,
    slice.1 ≤ slice.2 ∧ slice.2 ≤ t.utf8ByteSize ∧ IsBoundary t slice.1 ∧ IsBoundary t slice.2
  boundaries : ∀ offset ∈ trace.offsets, IsBoundary t offset
  increasing : trace.offsets.Pairwise (· < ·)

/-- Besides, no event is at `i` or behind it. -/
structure SafeTo (t : String) (i : Nat) (trace : Trace) : Prop extends Safe t trace where
  before : ∀ offset ∈ trace.offsets, offset < i

end Trace

/-- Why a reader stops early. -/
inductive Stop (ε : Type)
  | error (e : ε)
  /-- It takes a slice that cannot be taken. -/
  | outOfBounds

abbrev Reading (ε σ α : Type) := EStateM (Stop ε) (Trace × σ) α

variable {ε σ α β : Type} {t : String} {i j k : Nat} {cs as : List Char} {trace : Trace}

/-- A result that is reached besides a trace. -/
def withTrace (trace : Trace) : EStateM.Result ε σ α → EStateM.Result (Stop ε) (Trace × σ) α
  | .ok a s => .ok a (trace, s)
  | .error e s => .error (.error e) (trace, s)

def cut (t : String) (start stop : Nat) : Reading ε σ String := fun (trace, s) =>
  match slice? t start stop with
  | some text => .ok text (trace.cut start stop, s)
  | none => .error .outOfBounds (trace.cut start stop, s)

def hand (handle : Event → EStateM ε σ Unit) (e : Event) : Reading ε σ Unit := fun (trace, s) =>
  withTrace (trace.hand e.offset) (handle e s)

def fail (refuse : SyntaxError → ε) (e : SyntaxError) : Reading ε σ α := throw (.error (refuse e))

/-! ## The reader -/

/-- Where a name ends that begins at an offset: at the first `:` or `}`, or with the template. -/
def nameEnd (t : String) (j : Nat) : Nat :=
  if j < t.utf8ByteSize then
    if hasByte t j ':' || hasByte t j '}' then j else nameEnd t (j + 1)
  else j
termination_by t.utf8ByteSize - j

theorem le_nameEnd (t : String) (j : Nat) : j ≤ nameEnd t j := by
  fun_induction nameEnd t j <;> omega

/-- The number of bytes before the first such character. -/
def find? (c : Char) (text : String) : Option Nat :=
  if c ∈ text.toList then some (utf8Len (text.toList.takeWhile (· != c))) else none

/-- Reads on behind the name of an expression, which ends at `j` with a `:`. -/
def defaultAt (handle : Event → EStateM ε σ Unit) (refuse : SyntaxError → ε) (t : String)
    (i j : Nat) (hj : i < j) (name : String) : Reading ε σ { next : Nat // i < next } :=
  if hasByte t (j + 1) '-' then do
    let behind ← cut t (j + 2) t.utf8ByteSize
    match find? '}' behind with
    | none => fail refuse ⟨.unclosed, i⟩
    | some close =>
      let default ← cut t (j + 2) (j + 2 + close)
      hand handle ⟨i, .referenceOr name default⟩
      return ⟨j + 2 + close + 1, by omega⟩
  else fail refuse ⟨.invalid, i⟩

/-- Reads the expression that opens at an offset, and says where the template goes on. -/
def expressionAt (handle : Event → EStateM ε σ Unit) (refuse : SyntaxError → ε) (t : String)
    (i : Nat) : Reading ε σ { next : Nat // i < next } :=
  let j := nameEnd t (i + 2)
  have hj : i + 2 ≤ j := le_nameEnd t (i + 2)
  if j = t.utf8ByteSize then fail refuse ⟨.unclosed, i⟩
  else do
    let name ← cut t (i + 2) j
    if hasByte t j '}' then
      hand handle ⟨i, .reference name⟩
      return ⟨j + 1, by omega⟩
    else defaultAt handle refuse t i j (by omega) name

/-- Hands over the text between two offsets, if there is any. -/
def handText (handle : Event → EStateM ε σ Unit) (t : String) (start stop : Nat) :
    Reading ε σ Unit :=
  if start < stop then do
    let literal ← cut t start stop
    hand handle ⟨start, .text literal⟩
  else return

def opensAt (t : String) (i : Nat) : Bool := hasByte t i '$' && hasByte t (i + 1) '{'

/-- Reads on from `i`, when all before `textStart` is handed over. Each round gets further. -/
def rounds (handle : Event → EStateM ε σ Unit) (refuse : SyntaxError → ε) (t : String)
    (textStart i : Nat) : Reading ε σ Unit :=
  if h : i < t.utf8ByteSize then
    if opensAt t i then do
      handText handle t textStart i
      let ⟨next, _⟩ ← expressionAt handle refuse t i
      rounds handle refuse t next next
    else rounds handle refuse t textStart (i + 1)
  else handText handle t textStart t.utf8ByteSize
termination_by t.utf8ByteSize - i

/-- Reads a template by its bytes. -/
def readBytes (handle : Event → EStateM ε σ Unit) (refuse : SyntaxError → ε) (t : String) :
    Reading ε σ Unit :=
  if t.utf8ByteSize = 0 then hand handle ⟨0, .text ""⟩ else rounds handle refuse t 0 0

/-! ## Mirrors -/

theorem Trace.Safe.cut (h : trace.Safe t) (hle : i ≤ j) (hi : IsBoundary t i)
    (hj : IsBoundary t j) : (trace.cut i j).Safe t where
  slices := by
    intro slice hslice
    rcases List.mem_append.1 hslice with hslice | hslice
    · exact h.slices slice hslice
    · cases List.mem_singleton.1 hslice
      exact ⟨hle, hj.le, hi, hj⟩
  boundaries := h.boundaries
  increasing := h.increasing

theorem Trace.SafeTo.hand (h : trace.SafeTo t i) (hi : IsBoundary t i) :
    (trace.hand i).SafeTo t (i + 1) where
  slices := h.slices
  boundaries := by
    intro offset hoffset
    rcases List.mem_append.1 hoffset with hoffset | hoffset
    · exact h.boundaries offset hoffset
    · rwa [List.mem_singleton.1 hoffset]
  increasing := by
    refine List.pairwise_append.2 ⟨h.increasing, List.pairwise_singleton _ _, ?_⟩
    intro offset hoffset last hlast
    rw [List.mem_singleton.1 hlast]
    exact h.before offset hoffset
  before := by
    intro offset hoffset
    rcases List.mem_append.1 hoffset with hoffset | hoffset
    · exact Nat.lt_succ_of_lt (h.before offset hoffset)
    · rw [List.mem_singleton.1 hoffset]
      exact Nat.lt_succ_self i

theorem Trace.SafeTo.mono (h : trace.SafeTo t i) (hle : i ≤ k) : trace.SafeTo t k where
  toSafe := h.toSafe
  before := fun offset hoffset => Nat.lt_of_lt_of_le (h.before offset hoffset) hle

/-- A reading that has handed over nothing at `i` or behind it does what `x` does, and hands over
nothing at `k` or behind it. It takes slices besides, but none that it cannot take. -/
def Mirrors (t : String) (i k : Nat) (r : Reading ε σ α) (x : EStateM ε σ α) : Prop :=
  ∀ trace s, trace.SafeTo t i → ∃ trace', trace'.SafeTo t k ∧ r (trace, s) = withTrace trace' (x s)

section Mirrors

variable {r : Reading ε σ α} {x : EStateM ε σ α} {handle : Event → EStateM ε σ Unit}
  {refuse : SyntaxError → ε}

theorem Mirrors.mono (h : Mirrors t i j r x) (hle : j ≤ k) : Mirrors t i k r x := by
  intro trace s hsafe
  obtain ⟨trace', hsafe', hr⟩ := h trace s hsafe
  exact ⟨trace', hsafe'.mono hle, hr⟩

theorem mirrors_pure (t : String) (i : Nat) (a : α) :
    Mirrors t i i (pure a : Reading ε σ α) (pure a) :=
  fun trace _ hsafe => ⟨trace, hsafe, rfl⟩

theorem mirrors_fail (t : String) (i : Nat) (e : SyntaxError) :
    Mirrors t i i (fail refuse e : Reading ε σ α) (throw (refuse e)) :=
  fun trace _ hsafe => ⟨trace, hsafe, rfl⟩

theorem mirrors_hand {e : Event} (h : IsBoundary t e.offset) :
    Mirrors t e.offset (e.offset + 1) (hand handle e) (handle e) :=
  fun trace _ hsafe => ⟨trace.hand e.offset, hsafe.hand h, rfl⟩

theorem Mirrors.bind {f : α → Reading ε σ β} {g : α → EStateM ε σ β} (h : Mirrors t i j r x)
    (hle : j ≤ k) (hf : ∀ a s s', x s = .ok a s' → Mirrors t j k (f a) (g a)) :
    Mirrors t i k (r >>= f) (x >>= g) := by
  intro trace s hsafe
  obtain ⟨trace', hsafe', hr⟩ := h trace s hsafe
  cases hx : x s with
  | ok a s' =>
    rw [hx] at hr
    obtain ⟨trace'', hsafe'', hfa⟩ := hf a s s' hx trace' s' hsafe'
    exact ⟨trace'', hsafe'', by rw [bind_of_ok hr, bind_of_ok hx, hfa]⟩
  | error e s' =>
    rw [hx] at hr
    exact ⟨trace', hsafe'.mono hle, by rw [bind_of_error hr, bind_of_error hx]; rfl⟩

theorem cut_eq_ok (h : TailAt t j (as ++ cs)) (trace : Trace) (s : σ) :
    (cut t j (j + utf8Len as) : Reading ε σ String) (trace, s) =
      .ok (String.ofList as) (trace.cut j (j + utf8Len as), s) := by
  simp only [cut, h.slice?_eq]

/-- Taking a slice of whole characters only gives its text. -/
theorem Mirrors.cut {f : String → Reading ε σ α} {stop : Nat} (h : TailAt t j (as ++ cs))
    (hstop : stop = j + utf8Len as) (hf : Mirrors t i k (f (String.ofList as)) x) :
    Mirrors t i k (cut t j stop >>= f) x := by
  subst hstop
  intro trace s hsafe
  have hsafe' : (trace.cut j (j + utf8Len as)).SafeTo t i :=
    ⟨hsafe.toSafe.cut (Nat.le_add_right _ _) h.isBoundary h.append.isBoundary, hsafe.before⟩
  obtain ⟨trace', hafter, hrest⟩ := hf _ s hsafe'
  exact ⟨trace', hafter, by rw [bind_of_ok (cut_eq_ok h trace s), hrest]⟩

end Mirrors

/-! ## Where the reader stops -/

/-- What each of some steps leaves unchanged, all of them do. -/
theorem eq_add_of_step {f : Nat → α} {n : Nat} (h : ∀ l < n, f (i + l) = f (i + l + 1)) :
    f i = f (i + n) := by
  induction n with
  | zero => rfl
  | succ n ih =>
    rw [ih fun l hl => h l (Nat.lt_succ_of_lt hl), h n (Nat.lt_succ_self n)]
    rfl

/-- A name that goes on for some bytes ends behind them. -/
theorem nameEnd_add {n : Nat} (hle : j + n ≤ t.utf8ByteSize)
    (h : ∀ l < n, hasByte t (j + l) ':' = false ∧ hasByte t (j + l) '}' = false) :
    nameEnd t j = nameEnd t (j + n) := by
  refine eq_add_of_step fun l hl => ?_
  obtain ⟨hcolon, hbrace⟩ := h l hl
  rw [nameEnd, if_pos (by omega), hcolon, hbrace, Bool.or_false, if_neg Bool.false_ne_true]

/-- **A name ends** at the first character that is not one of a name, or with the template. -/
theorem nameEnd_eq {name : List Char} (h : TailAt t j (name ++ cs))
    (hname : ∀ c ∈ name, isNameChar c = true) (hends : ∀ c ∈ cs.head?, isNameChar c = false) :
    nameEnd t j = j + utf8Len name := by
  obtain ⟨hcolon, hbrace⟩ := forall_isNameChar_iff.1 hname
  have hnone {a : Char} (ha : a.utf8Size = 1) (hmem : a ∉ name) {l : Nat} (hl : l < utf8Len name) :
      hasByte t (j + l) a = false := by
    rw [Bool.eq_false_iff]
    intro hbyte
    obtain ⟨before, after, rfl, -⟩ := h.exists_of_hasByte_lt ha hl hbyte
    exact hmem (by simp)
  have hsize := h.append.add_eq
  rw [nameEnd_add (by omega) fun l hl => ⟨hnone (by decide) hcolon hl, hnone (by decide) hbrace hl⟩,
    nameEnd]
  split
  · next hlt =>
    cases cs with
    | nil =>
      rw [String.utf8Len_nil] at hsize
      omega
    | cons c cs =>
      -- what ends a name is one of the characters that are looked for
      have hend : c = ':' ∨ c = '}' := isNameChar_eq_false_iff.1 (hends c rfl)
      refine if_pos (Bool.or_eq_true_iff.2 (hend.imp ?_ ?_))
      · rintro rfl
        exact (h.append.hasByte_iff (by decide)).2 rfl
      · rintro rfl
        exact (h.append.hasByte_iff (by decide)).2 rfl
  · rfl

theorem opensAt_iff (h : TailAt t i cs) : opensAt t i = true ↔ Opens cs := by
  rw [opensAt, Bool.and_eq_true, h.hasByte_iff (by decide), opens_iff]
  constructor
  · rintro ⟨hdollar, hbrace⟩
    obtain ⟨cs, rfl⟩ := List.head?_eq_some_iff.1 hdollar
    obtain ⟨body, rfl⟩ :=
      List.head?_eq_some_iff.1 (((h.cons (by decide)).hasByte_iff (by decide)).1 hbrace)
    exact ⟨body, rfl⟩
  · rintro ⟨body, rfl⟩
    exact ⟨rfl, ((h.cons (by decide)).hasByte_iff (by decide)).2 rfl⟩

/-- No expression opens at a byte of a literal. -/
theorem opensAt_eq_false {literal : List Char} (h : TailAt t i (literal ++ cs))
    (hliteral : ¬HasOpener literal) (hends : EndsLiteral cs) {l : Nat} (hl : l < utf8Len literal) :
    opensAt t (i + l) = false := by
  rw [Bool.eq_false_iff]
  intro hopens
  have hdollar := (Bool.and_eq_true_iff.1 hopens).1
  obtain ⟨before, after, rfl, rfl⟩ := h.exists_of_hasByte_lt (by decide) hl hdollar
  rw [List.append_assoc] at h
  exact not_opens_append (fun hopener => hliteral (hopener.trans (List.suffix_append _ _).isInfix))
    (List.cons_ne_nil _ _) hends ((opensAt_iff h.append).1 hopens)

/-! ## Expressions -/

section Expressions

variable {handle : Event → EStateM ε σ Unit} {refuse : SyntaxError → ε} {s : Segment}
  {name : String} {rest body : List Char} {fault : Fault}

theorem find?_eq_some {default : String} (h : '}' ∉ default.toList) (rest : List Char) :
    find? '}' (String.ofList (default.toList ++ '}' :: rest)) = some (utf8Len default.toList) := by
  have hdefault : ∀ c ∈ default.toList, (c != '}') = true := fun c hc =>
    bne_iff_ne.2 fun heq => h (heq ▸ hc)
  rw [find?, String.toList_ofList, if_pos (by simp), List.takeWhile_append_of_pos hdefault]
  simp

/-- Handing over an event is the last that is done before it is said where the template goes on. -/
theorem mirrors_hand_pure (h : IsBoundary t i) {next : Nat} (hlt : i < next) :
    Mirrors t i next
      (hand handle ⟨i, s⟩ >>= fun _ => (pure ⟨next, hlt⟩ : Reading ε σ { next : Nat // i < next }))
      (handle ⟨i, s⟩ >>= fun _ => pure ⟨next, hlt⟩) :=
  (mirrors_hand (e := ⟨i, s⟩) h).bind hlt fun _ _ _ _ => (mirrors_pure t (i + 1) _).mono hlt

theorem mirrors_defaultAt_of_ok {default : String} {next : Nat} (hi : IsBoundary t i) (hj : i < j)
    (h : TailAt t j (':' :: '-' :: (default.toList ++ '}' :: rest)))
    (hdefault : '}' ∉ default.toList) (hnext : TailAt t next rest) (hlt : i < next) :
    Mirrors t i next (defaultAt handle refuse t i j hj name)
      (handle ⟨i, .referenceOr name default⟩ >>= fun _ => pure ⟨next, hlt⟩) := by
  have hdash : TailAt t (j + 1) ('-' :: (default.toList ++ '}' :: rest)) := h.cons (by decide)
  have hbehind : TailAt t (j + 2) (default.toList ++ '}' :: rest) := hdash.cons (by decide)
  have hall : TailAt t (j + 2) ((default.toList ++ '}' :: rest) ++ []) := by rwa [List.append_nil]
  obtain rfl := hnext.unique (hbehind.append.cons (by decide))
  rw [defaultAt, if_pos ((hdash.hasByte_iff (by decide)).2 rfl)]
  refine .cut hall hbehind.add_eq.symm ?_
  simp only [find?_eq_some hdefault]
  refine .cut hbehind rfl ?_
  rw [String.ofList_toList]
  exact mirrors_hand_pure hi hlt

theorem mirrors_defaultAt_of_not_mem (hj : i < j) (h : TailAt t j (':' :: '-' :: rest))
    (hclose : '}' ∉ rest) :
    Mirrors t i i (defaultAt handle refuse t i j hj name) (throw (refuse ⟨.unclosed, i⟩)) := by
  have hdash : TailAt t (j + 1) ('-' :: rest) := h.cons (by decide)
  have hbehind : TailAt t (j + 2) rest := hdash.cons (by decide)
  have hall : TailAt t (j + 2) (rest ++ []) := by rwa [List.append_nil]
  have hnone : find? '}' (String.ofList rest) = none := by
    rw [find?, String.toList_ofList, if_neg hclose]
  rw [defaultAt, if_pos ((hdash.hasByte_iff (by decide)).2 rfl)]
  refine .cut hall hbehind.add_eq.symm ?_
  simp only [hnone]
  exact mirrors_fail t i _

theorem mirrors_defaultAt_of_head? (hj : i < j) (h : TailAt t j (':' :: rest))
    (hdash : rest.head? ≠ some '-') :
    Mirrors t i i (defaultAt handle refuse t i j hj name) (throw (refuse ⟨.invalid, i⟩)) := by
  have hbehind : TailAt t (j + 1) rest := h.cons (by decide)
  rw [defaultAt, if_neg (mt (hbehind.hasByte_iff (by decide)).1 hdash)]
  exact mirrors_fail t i _

theorem mirrors_expressionAt_of_brace {next : Nat} (hi : IsBoundary t i)
    (h : TailAt t (i + 2) (name.toList ++ '}' :: rest))
    (hname : ':' ∉ name.toList ∧ '}' ∉ name.toList) (hnext : TailAt t next rest) (hlt : i < next) :
    Mirrors t i next (expressionAt handle refuse t i)
      (handle ⟨i, .reference name⟩ >>= fun _ => pure ⟨next, hlt⟩) := by
  have hend := nameEnd_eq h (forall_isNameChar_iff.2 hname) (by simp [isNameChar])
  have hbrace : TailAt t (nameEnd t (i + 2)) ('}' :: rest) := hend ▸ h.append
  obtain rfl := hnext.unique (hbrace.cons (by decide))
  unfold expressionAt
  dsimp only
  rw [if_neg hbrace.lt.ne]
  refine .cut h hend ?_
  rw [String.ofList_toList, if_pos ((hbrace.hasByte_iff (by decide)).2 rfl)]
  exact mirrors_hand_pure hi hlt

/-- Behind a `:` it is the default that decides. -/
theorem mirrors_expressionAt_of_colon {x : EStateM ε σ { next : Nat // i < next }}
    (h : TailAt t (i + 2) (name.toList ++ ':' :: rest))
    (hname : ':' ∉ name.toList ∧ '}' ∉ name.toList)
    (hdefault : ∀ j (hj : i < j), TailAt t j (':' :: rest) →
      Mirrors t i k (defaultAt handle refuse t i j hj name) x) :
    Mirrors t i k (expressionAt handle refuse t i) x := by
  have hend := nameEnd_eq h (forall_isNameChar_iff.2 hname) (by simp [isNameChar])
  have hcolon : TailAt t (nameEnd t (i + 2)) (':' :: rest) := hend ▸ h.append
  unfold expressionAt
  dsimp only
  rw [if_neg hcolon.lt.ne]
  refine .cut h hend ?_
  rw [String.ofList_toList, if_neg (mt (hcolon.hasByte_iff (by decide)).1 (by simp))]
  exact hdefault _ _ hcolon

theorem mirrors_expressionAt_of_ok {next : Nat} (h : TailAt t i ('$' :: '{' :: body))
    (hread : readExpression body = .ok (s, rest)) (hnext : TailAt t next rest) (hlt : i < next) :
    Mirrors t i next (expressionAt handle refuse t i)
      (handle ⟨i, s⟩ >>= fun _ => pure ⟨next, hlt⟩) := by
  obtain ⟨htext, hregular, hsource⟩ := readExpression_eq_ok_iff.1 hread
  have hbody : TailAt t (i + 2) body := (h.cons (by decide)).cons (by decide)
  cases s with
  | text literal => cases htext
  | reference name =>
    rw [Segment.toList_source_reference] at hsource
    obtain rfl : body = name.toList ++ '}' :: rest := by simpa using hsource
    exact mirrors_expressionAt_of_brace h.isBoundary hbody hregular hnext hlt
  | referenceOr name default =>
    rw [Segment.toList_source_referenceOr] at hsource
    obtain rfl : body = name.toList ++ ':' :: '-' :: (default.toList ++ '}' :: rest) := by
      simpa using hsource
    obtain ⟨hcolon, hbrace, hclose⟩ := hregular
    exact mirrors_expressionAt_of_colon hbody ⟨hcolon, hbrace⟩ fun j hj htail =>
      mirrors_defaultAt_of_ok h.isBoundary hj htail hclose hnext hlt

theorem mirrors_expressionAt_of_malformed (h : TailAt t i ('$' :: '{' :: body))
    (hread : readExpression body = .error fault) :
    Mirrors t i i (expressionAt handle refuse t i) (throw (refuse ⟨fault, i⟩)) := by
  have hbody : TailAt t (i + 2) body := (h.cons (by decide)).cons (by decide)
  have hmalformed := readExpression_eq_error_iff.1 hread
  generalize hmessage : fault.message = message at hmalformed
  cases hmalformed with
  | name hcolon hbrace =>
    obtain rfl : fault = .unclosed := Fault.eq_of_message_eq hmessage
    have hall : TailAt t (i + 2) (body ++ []) := by rwa [List.append_nil]
    have hend := nameEnd_eq hall (forall_isNameChar_iff.2 ⟨hcolon, hbrace⟩) (by simp)
    unfold expressionAt
    dsimp only
    rw [if_pos (hend.trans hbody.add_eq)]
    exact mirrors_fail t i _
  | @operator name rest hcolon hbrace hdash =>
    obtain rfl : fault = .invalid := Fault.eq_of_message_eq hmessage
    have hname := String.toList_ofList (l := name)
    rw [← hname] at hbody hcolon hbrace
    exact mirrors_expressionAt_of_colon hbody ⟨hcolon, hbrace⟩ fun j hj htail =>
      mirrors_defaultAt_of_head? hj htail hdash
  | @default name rest hcolon hbrace hclose =>
    obtain rfl : fault = .unclosed := Fault.eq_of_message_eq hmessage
    have hname := String.toList_ofList (l := name)
    rw [← hname] at hbody hcolon hbrace
    exact mirrors_expressionAt_of_colon hbody ⟨hcolon, hbrace⟩ fun j hj htail =>
      mirrors_defaultAt_of_not_mem hj htail hclose

end Expressions

/-! ## Rounds -/

section Rounds

variable {handle : Event → EStateM ε σ Unit} {refuse : SyntaxError → ε}

theorem handText_self (i : Nat) : handText handle t i i = pure () := by
  rw [handText, if_neg (Nat.lt_irrefl i)]

theorem mirrors_handText {literal : List Char} (h : TailAt t i (literal ++ cs))
    (hne : literal ≠ []) :
    Mirrors t i (i + utf8Len literal) (handText handle t i (i + utf8Len literal))
      (handle ⟨i, .text (String.ofList literal)⟩) := by
  have hlt : i < i + utf8Len literal := Nat.lt_add_of_pos_right (Text.utf8Len_pos hne)
  rw [handText, if_pos hlt]
  exact .cut h rfl ((mirrors_hand (e := ⟨i, _⟩) h.isBoundary).mono hlt)

/-- A round without an opener only goes on by a byte. -/
theorem rounds_add {n textStart : Nat} (hle : i + n ≤ t.utf8ByteSize)
    (h : ∀ l < n, opensAt t (i + l) = false) :
    rounds handle refuse t textStart i = rounds handle refuse t textStart (i + n) := by
  refine eq_add_of_step (f := rounds handle refuse t textStart) fun l hl => ?_
  rw [rounds, dif_pos (by omega), h l hl, if_neg Bool.false_ne_true]

theorem rounds_of_opens {textStart : Nat} (h : TailAt t i cs) (hopens : Opens cs) :
    rounds handle refuse t textStart i =
      handText handle t textStart i >>= fun _ =>
        expressionAt handle refuse t i >>= fun next => rounds handle refuse t next next := by
  obtain ⟨body, rfl⟩ := opens_iff.1 hopens
  rw [rounds, dif_pos h.lt, if_pos ((opensAt_iff h).2 hopens)]

theorem rounds_of_nil {textStart : Nat} (h : TailAt t i []) :
    rounds handle refuse t textStart i = handText handle t textStart i := by
  have hi : i = t.utf8ByteSize := h.add_eq
  rw [rounds, dif_neg (by omega), hi]

/-- **Where a literal may end, the text before is handed over**, and nothing is left of it. -/
theorem rounds_of_endsLiteral {textStart : Nat} (h : TailAt t i cs) (hends : EndsLiteral cs) :
    rounds handle refuse t textStart i =
      handText handle t textStart i >>= fun _ => rounds handle refuse t i i := by
  rcases hends with rfl | hopens
  · rw [rounds_of_nil h, rounds_of_nil h, handText_self]
    exact (bind_pure _).symm
  · rw [rounds_of_opens h hopens, rounds_of_opens h hopens, handText_self, pure_bind]

theorem eq_of_bind_pure {x : EStateM ε σ α} {a b : β} {s s' : σ}
    (h : (x >>= fun _ => pure b) s = .ok a s') : a = b := by
  cases hx : x s with
  | ok c s'' =>
    rw [bind_of_ok hx] at h
    cases h
    rfl
  | error e s'' =>
    rw [bind_of_error hx] at h
    cases h

/-- Behind an expression the next round begins. -/
theorem mirrors_round_of_ok {s : Segment} {body rest : List Char} {next : Nat}
    (h : TailAt t i ('$' :: '{' :: body)) (hread : readExpression body = .ok (s, rest))
    (hnext : TailAt t next rest) (hlt : i < next)
    (hrest : Mirrors t next t.utf8ByteSize (rounds handle refuse t next next)
      (readFor handle refuse next rest)) :
    Mirrors t i t.utf8ByteSize (rounds handle refuse t i i)
      (handle ⟨i, s⟩ >>= fun _ => readFor handle refuse next rest) := by
  have hexpression : Mirrors t i next (expressionAt handle refuse t i) _ :=
    mirrors_expressionAt_of_ok h hread hnext hlt
  have hboth := hexpression.bind (f := fun a => rounds handle refuse t a.1 a.1)
    (g := fun a => readFor handle refuse a.1 rest) hnext.isBoundary.le
    fun a before after hrun => by
      obtain rfl := eq_of_bind_pure (x := handle ⟨i, s⟩) hrun
      exact hrest
  rw [bind_assoc] at hboth
  simp only [pure_bind] at hboth
  rwa [rounds_of_opens h ⟨body, rfl⟩, handText_self, pure_bind]

/-- **The reader of bytes does what the reader of characters does**, from each character on at which
a segment begins. -/
theorem mirrors_rounds (h : TailAt t i cs) :
    Mirrors t i t.utf8ByteSize (rounds handle refuse t i i) (readFor handle refuse i cs) := by
  fun_induction readFor handle refuse i cs with
  | case1 i =>
    rw [rounds_of_nil h, handText_self]
    exact (mirrors_pure t i ()).mono h.isBoundary.le
  | case2 i body fault hread =>
    rw [rounds_of_opens h ⟨body, rfl⟩, handText_self, pure_bind]
    have hfails : Mirrors t i i (expressionAt handle refuse t i) _ :=
      mirrors_expressionAt_of_malformed h hread
    refine hfails.bind (g := fun _ => pure ()) h.isBoundary.le fun _ _ _ hrun => ?_
    cases hrun
  | case3 i body s rest hread _ ih =>
    obtain ⟨-, hregular, hsource⟩ := readExpression_eq_ok_iff.1 hread
    have hpos : 0 < utf8Len s.source.toList := Text.utf8Len_pos hregular.source_ne_nil
    have hrest : TailAt t (i + utf8Len s.source.toList) rest := (hsource ▸ h).append
    rw [← Text.utf8Len_toList s.source] at ih ⊢
    exact mirrors_round_of_ok h hread hrest (Nat.lt_add_of_pos_right hpos) (ih hrest)
  | case4 i c cs hopener literal _ ih =>
    have hopens : ¬Opens (c :: cs) := not_opens_cons hopener
    obtain ⟨hsplit, hliteral, hends⟩ := splitLiteral_eq_iff.1 (splitLiteral_cons hopens)
    have hsize : literal.utf8ByteSize = utf8Len (c :: (splitLiteral cs).1) :=
      String.utf8ByteSize_ofList _
    rw [hsplit] at h
    rw [hsize] at ih ⊢
    rw [rounds_add h.append.isBoundary.le fun l hl => opensAt_eq_false h hliteral hends hl,
      rounds_of_endsLiteral h.append hends]
    exact (mirrors_handText h (List.cons_ne_nil _ _)).bind h.append.isBoundary.le
      fun _ _ _ _ => ih h.append

theorem mirrors_readBytes (t : String) :
    Mirrors t 0 (t.utf8ByteSize + 1) (readBytes handle refuse t) (parseWith handle refuse t) := by
  have htail := Text.tailAt_zero t
  unfold readBytes parseWith
  cases hchars : t.toList with
  | nil =>
    have hempty : t.utf8ByteSize = 0 := by rw [← Text.utf8Len_toList, hchars, String.utf8Len_nil]
    rw [if_pos hempty]
    exact (mirrors_hand (e := ⟨0, .text ""⟩) htail.isBoundary).mono (Nat.le_add_left 1 _)
  | cons c cs =>
    rw [hchars] at htail
    rw [if_neg htail.lt.ne']
    exact (mirrors_rounds htail).mono (Nat.le_succ _)

end Rounds

/-- **Reading a template by its bytes** is reading it. The reader ends as `parseWith` does, and
never because of a slice that it cannot take: each one is in order, in the template and between
characters. The events that it hands over are at characters, each behind the ones before. -/
theorem exists_safe_readBytes_eq (handle : Event → EStateM ε σ Unit) (refuse : SyntaxError → ε)
    (t : String) (before : σ) :
    ∃ trace : Trace, trace.Safe t ∧
      readBytes handle refuse t ({}, before) =
        withTrace trace (parseWith handle refuse t before) := by
  have hstart : ({} : Trace).SafeTo t 0 := ⟨⟨nofun, nofun, .nil⟩, nofun⟩
  obtain ⟨trace, hsafe, heq⟩ := mirrors_readBytes t {} before hstart
  exact ⟨trace, hsafe.toSafe, heq⟩

end Wiring.Template
