import Mathlib.Data.List.DropRight
import Wiring.Proofs.TypeRef.Cursor
import Wiring.Proofs.TypeRef.Reading

/-!
# Type references read at offsets

A reader of type references that moves a cursor over the bytes of its text. It looks at a character by
cutting the text at the cursor, and it cannot go on where the text cannot be cut. Nothing in it says
that it ends: it has no result where it would read for ever. What it does with names and brackets is
what the readers of characters do.
-/

namespace Wiring.TypeRef

open String (utf8Len)
open Text (IsBoundary TailAt slice? isBlank skipBlanks)

/-! ## The reader -/

/-- Why a reader stops before it has read what it is to read. -/
inductive Halt
  | fault (e : ParseError)
  /-- It takes a slice that cannot be taken. -/
  | outOfBounds
deriving DecidableEq, Repr

/-- What a reader makes of a cursor: a result, or a reason to stop, and the cursor after that. It makes
nothing of a cursor from which it does not come to an end. -/
abbrev Reader (α : Type) := ExceptT Halt (StateT Cursor Option) α

/-- A text that is read at offsets. -/
abbrev Source := String

namespace Source

variable {α β : Type}

def offsetNow : Reader Nat := do return (← get).offset

def cut (t : Source) (start stop : Nat) : Reader String := do
  modify (·.cut start stop)
  match slice? t start stop with
  | some text => return text
  | none => throw .outOfBounds

/-- The text from the cursor on. -/
def behind (t : Source) : Reader String := do
  t.cut (← offsetNow) t.utf8ByteSize

/-- The character at the cursor, if the text goes on. -/
def peek (t : Source) : Reader (Option Char) := do
  return (← t.behind).toList.head?

def advance (count : Nat) : Reader Unit := modify fun c => c.moveTo (c.offset + count)

def failNow (t : Source) (fault : Fault) : Reader α := do
  throw (.fault ⟨t, fault, ← offsetNow⟩)

/-- Passes over characters as long as they satisfy `p`. -/
def skipWhile (t : Source) (p : Char → Bool) : Reader Unit := do
  match ← t.peek with
  | some c =>
    if p c then
      advance c.utf8Size
      t |>.skipWhile p
    else return
  | none => return
partial_fixpoint

/-- Passes over blanks, and over `symbol` if it is there. -/
def eat (t : Source) (symbol : Char) : Reader Bool := do
  t.skipWhile isBlank
  if (← t.peek) = some symbol then
    advance symbol.utf8Size
    return true
  else return false

def nameAt (t : Source) : Reader String := do
  t.skipWhile isBlank
  let start ← offsetNow
  t.skipWhile isNameChar
  let run ← t.cut start (← offsetNow)
  if isName run.toList then return run else t.failNow .noName

/-- Reads the brackets behind a component type. -/
def bracketsAt (t : Source) (component : TypeRef) : Reader TypeRef := do
  if ← t.eat '[' then
    if ← t.eat ']' then t |>.bracketsAt (.array component) else t.failNow .openBracket
  else return component
partial_fixpoint

/-- The bound whose keyword comes first and has a blank behind it. -/
def boundOf? (cs : List Char) : Option Bound :=
  [Bound.upper, Bound.lower].find? fun bound => (afterKeyword? bound.keyword cs).isSome

mutual

/-- Reads one type. -/
def typeAt (t : Source) : Reader TypeRef := do
  let start ← offsetNow
  t.skipWhile isBlank
  let head ← t |>.headAt start
  t.bracketsAt head
partial_fixpoint

/-- Reads the type that was begun at `start`, up to the brackets that may follow. -/
def headAt (t : Source) (start : Nat) : Reader TypeRef := do
  if ← t.eat '?' then t |>.wildcardAt start
  else
    let name ← t.nameAt
    if takesArguments name then
      if ← t.eat '<' then return ofName name (← t |>.argumentsAt start)
      else return ofName name []
    else return ofName name []
partial_fixpoint

/-- Reads on behind the mark of a wildcard that was begun at `start`. -/
def wildcardAt (t : Source) (start : Nat) : Reader TypeRef := do
  t.skipWhile isBlank
  match boundOf? (← t.behind).toList with
  | some bound =>
    advance (utf8Len bound.keyword)
    return bound.apply (← t |>.partAt start)
  | none => return wildcard
partial_fixpoint

/-- Reads the arguments of a type that was begun at `start`, up to and with the closing `>`. -/
def argumentsAt (t : Source) (start : Nat) : Reader (List TypeRef) := do
  let arg ← t |>.partAt start
  if ← t.eat ',' then return arg :: (← t |>.argumentsAt start)
  else if ← t.eat '>' then return [arg]
  else t.failNow .openArguments
partial_fixpoint

/-- Reads a type that is a part of the one that was begun at `start`. -/
def partAt (t : Source) (start : Nat) : Reader TypeRef := do
  modify (·.beginPart start)
  t |>.typeAt
partial_fixpoint

end

/-- Reads a whole text as one type reference. -/
def parseAt (t : Source) : Reader TypeRef := do
  let parsed ← t.typeAt
  t.skipWhile isBlank
  if (← offsetNow) = t.utf8ByteSize then return parsed else t.failNow .trailingInput

/-! ## Readers one after another -/

open Cursor (Leads)

variable {t : Source} {c c' : Cursor} {i : Nat} {cs rest : List Char} {r : Reader α}
  {f : α → Reader β} {a : α} {symbol : Char}

theorem bind_of_ok (h : r c = some (.ok a, c')) : (r >>= f) c = f a c' := by
  show (StateT.bind (m := Option) r (ExceptT.bindCont f)) c = _
  simp only [StateT.bind, h]
  rfl

theorem bind_of_error {e : Halt} (h : r c = some (.error e, c')) :
    (r >>= f) c = some (.error e, c') := by
  show (StateT.bind (m := Option) r (ExceptT.bindCont f)) c = _
  simp only [StateT.bind, h]
  rfl

theorem offsetNow_bind (f : Nat → Reader β) (c : Cursor) : (offsetNow >>= f) c = f c.offset c :=
  bind_of_ok rfl

theorem cut_eq {as : List Char} (h : TailAt t i (as ++ cs)) (c : Cursor) :
    t.cut i (i + utf8Len as) c = some (.ok (String.ofList as), c.cut i (i + utf8Len as)) := by
  have hmodify : (modify (·.cut i (i + utf8Len as)) : Reader Unit) c =
      some (.ok (), c.cut i (i + utf8Len as)) := rfl
  unfold cut
  rw [bind_of_ok hmodify, h.slice?_eq]
  rfl

/-- Looking at what comes does not move the cursor. -/
theorem behind_eq (hc : c.Safe t) (h : TailAt t c.offset cs) :
    ∃ c', t.behind c = some (.ok (String.ofList cs), c') ∧ Leads t c c' ∧
      TailAt t c'.offset cs := by
  have hall : TailAt t c.offset (cs ++ []) := by rwa [List.append_nil]
  have hsafe := hc.cut h.isBoundary.le h.isBoundary (Text.isBoundary_size t)
  refine ⟨c.cut c.offset t.utf8ByteSize, ?_, ⟨hsafe, le_rfl⟩, h⟩
  unfold behind
  rw [offsetNow_bind, ← h.add_eq]
  exact cut_eq hall c

theorem peek_eq (hc : c.Safe t) (h : TailAt t c.offset cs) :
    ∃ c', t.peek c = some (.ok cs.head?, c') ∧ Leads t c c' ∧ TailAt t c'.offset cs := by
  obtain ⟨c', hbehind, hleads, htail⟩ := behind_eq hc h
  refine ⟨c', ?_, hleads, htail⟩
  unfold peek
  rw [bind_of_ok hbehind, String.toList_ofList]
  rfl

/-- The cursor is moved over whole characters. -/
theorem advance_eq {as : List Char} (hc : c.Safe t) (h : TailAt t c.offset (as ++ cs)) :
    ∃ c', advance (utf8Len as) c = some (.ok (), c') ∧ Leads t c c' ∧ TailAt t c'.offset cs :=
  ⟨_, rfl, ⟨hc.moveTo (Nat.le_add_right _ _) h.append.isBoundary, Nat.le_add_right _ _⟩, h.append⟩

theorem advance_utf8Size (hc : c.Safe t) (h : TailAt t c.offset (symbol :: cs)) :
    ∃ c', advance symbol.utf8Size c = some (.ok (), c') ∧ Leads t c c' ∧ c.offset < c'.offset ∧
      TailAt t c'.offset cs := by
  have hone : TailAt t c.offset ([symbol] ++ cs) := h
  have hsize : utf8Len [symbol] = symbol.utf8Size := by
    rw [String.utf8Len_cons, String.utf8Len_nil, Nat.zero_add]
  obtain ⟨c', hadvance, hleads, htail⟩ := advance_eq hc hone
  have hend := hone.append.unique htail
  have hpos := symbol.utf8Size_pos
  rw [hsize] at hadvance hend
  exact ⟨c', hadvance, hleads, by omega, htail⟩

/-! ## Characters -/

/-- **The loop over characters ends** behind those that satisfy `p`. -/
theorem skipWhile_eq (p : Char → Bool) (hc : c.Safe t) (h : TailAt t c.offset cs) :
    ∃ c', t.skipWhile p c = some (.ok (), c') ∧ Leads t c c' ∧
      TailAt t c'.offset (cs.dropWhile p) := by
  induction cs generalizing c with
  | nil =>
    obtain ⟨c₁, hpeek, hleads, htail⟩ := peek_eq hc h
    refine ⟨c₁, ?_, hleads, htail⟩
    rw [skipWhile, bind_of_ok hpeek]
    rfl
  | cons a cs ih =>
    obtain ⟨c₁, hpeek, hleads, htail⟩ := peek_eq hc h
    rw [skipWhile, bind_of_ok hpeek]
    dsimp only [List.head?_cons]
    cases ha : p a with
    | false =>
      refine ⟨c₁, rfl, hleads, ?_⟩
      rwa [List.dropWhile_cons_of_neg (by rw [ha]; exact Bool.false_ne_true)]
    | true =>
      obtain ⟨c₂, hadvance, hleads₂, -, htail₂⟩ := advance_utf8Size hleads.safe htail
      obtain ⟨c₃, hskip, hleads₃, htail₃⟩ := ih hleads₂.safe htail₂
      rw [List.dropWhile_cons_of_pos ha]
      refine ⟨c₃, ?_, hleads.trans (hleads₂.trans hleads₃), htail₃⟩
      rw [if_pos rfl, bind_of_ok hadvance, hskip]

/-- The characters `cs` begin at the offset, but for blanks before them. -/
def Near (t : Source) (i : Nat) (cs : List Char) : Prop :=
  ∃ as, TailAt t i as ∧ skipBlanks as = skipBlanks cs

theorem near_of_tailAt (h : TailAt t i cs) : Near t i cs := ⟨cs, h, rfl⟩

theorem near_of_skipBlanks (h : TailAt t i (skipBlanks cs)) : Near t i cs :=
  ⟨_, h, List.dropWhile_idempotent _ _⟩

theorem skipBlanks_eq (hc : c.Safe t) (h : Near t c.offset cs) :
    ∃ c', t.skipWhile isBlank c = some (.ok (), c') ∧ Leads t c c' ∧
      TailAt t c'.offset (skipBlanks cs) := by
  obtain ⟨as, htail, has⟩ := h
  rw [← has]
  exact skipWhile_eq isBlank hc htail

/-- A symbol that is there is passed over. -/
theorem eat_of_cons (hc : c.Safe t) (h : Near t c.offset cs) (hcs : skipBlanks cs = symbol :: rest) :
    ∃ c', t.eat symbol c = some (.ok true, c') ∧ Leads t c c' ∧ c.offset < c'.offset ∧
      TailAt t c'.offset rest := by
  obtain ⟨c₁, hskip, hleads, htail⟩ := skipBlanks_eq hc h
  obtain ⟨c₂, hpeek, hleads₂, htail₂⟩ := peek_eq hleads.safe htail
  rw [hcs] at hpeek htail₂
  obtain ⟨c₃, hadvance, hleads₃, hlt, htail₃⟩ := advance_utf8Size hleads₂.safe htail₂
  refine ⟨c₃, ?_, hleads.trans (hleads₂.trans hleads₃), (hleads.trans hleads₂).le.trans_lt hlt,
    htail₃⟩
  unfold eat
  rw [bind_of_ok hskip, bind_of_ok hpeek, List.head?_cons, if_pos rfl, bind_of_ok hadvance]
  rfl

theorem eat_of_head?_ne (hc : c.Safe t) (h : Near t c.offset cs)
    (hcs : (skipBlanks cs).head? ≠ some symbol) :
    ∃ c', t.eat symbol c = some (.ok false, c') ∧ Leads t c c' ∧
      TailAt t c'.offset (skipBlanks cs) := by
  obtain ⟨c₁, hskip, hleads, htail⟩ := skipBlanks_eq hc h
  obtain ⟨c₂, hpeek, hleads₂, htail₂⟩ := peek_eq hleads.safe htail
  refine ⟨c₂, ?_, hleads.trans hleads₂, htail₂⟩
  unfold eat
  rw [bind_of_ok hskip, bind_of_ok hpeek, if_neg hcs]
  rfl

/-! ## Readers that end as readers of characters do -/

/-- From the cursor `c` the reader ends, and as `x` does. Where `x` has a result, it has the same, and it
is where the characters that `x` leaves begin, but for blanks. Where `x` stops at a fault, it stops there
at the same fault, and gives its offset. -/
def EndsAs (t : Source) (c : Cursor) (r : Reader α) {q : List Char → Prop}
    (x : Except Stop (α × { rest : List Char // q rest })) : Prop :=
  ∃ c', Leads t c c' ∧
    match x with
    | .ok (a, rest) => r c = some (.ok a, c') ∧ Near t c'.offset rest.1
    | .error stop =>
      r c = some (.error (.fault ⟨t, stop.fault, c'.offset⟩), c') ∧ TailAt t c'.offset stop.rest

namespace EndsAs

variable {q q' : List Char → Prop} {x : Except Stop (α × { rest : List Char // q rest })}
  {y : Except Stop (β × { rest : List Char // q rest })}
  {g : α × { rest : List Char // q rest } → Except Stop (β × { rest : List Char // q' rest })}

theorem pure (hc : c.Safe t) {rest : { rest : List Char // q rest }} (h : Near t c.offset rest.1) :
    EndsAs t c (pure a) (.ok (a, rest)) :=
  ⟨c, hc.leads, rfl, h⟩

theorem failNow (hc : c.Safe t) {fault : Fault} (h : TailAt t c.offset cs) :
    EndsAs (q := q) t c (t.failNow fault : Reader α) (.error ⟨fault, cs⟩) :=
  ⟨c, hc.leads, rfl, h⟩

/-- What is done before the rest of a reader. -/
theorem step (hr : r c = some (.ok a, c')) (hleads : Leads t c c') (h : EndsAs t c' (f a) y) :
    EndsAs t c (r >>= f) y := by
  obtain ⟨c'', hleads', hy⟩ := h
  refine ⟨c'', hleads.trans hleads', ?_⟩
  rwa [bind_of_ok hr]

theorem offsetNow {f : Nat → Reader β} (h : EndsAs t c (f c.offset) y) :
    EndsAs t c (offsetNow >>= f) y := by
  obtain ⟨c', hleads, hy⟩ := h
  refine ⟨c', hleads, ?_⟩
  rwa [offsetNow_bind]

theorem bind (h : EndsAs t c r x)
    (hf : ∀ a rest c', Leads t c c' → Near t c'.offset rest.1 → EndsAs t c' (f a) (g (a, rest))) :
    EndsAs t c (r >>= f) (x >>= g) := by
  obtain ⟨c', hleads, hx⟩ := h
  cases x with
  | error stop =>
    refine ⟨c', hleads, ?_⟩
    rw [bind_of_error hx.1]
    exact ⟨rfl, hx.2⟩
  | ok result => exact .step hx.1 hleads (hf result.1 result.2 c' hleads hx.2)

/-- The reader of characters may do something to the result, as long as it leaves the same. -/
theorem map {h : α → β} (hx : EndsAs t c r x)
    (hg : ∀ a rest, ∃ rest', g (a, rest) = .ok (h a, rest') ∧ rest'.1 = rest.1) :
    EndsAs t c (r >>= fun a => Pure.pure (h a)) (x >>= g) := by
  refine hx.bind fun a rest c' hleads hnear => ?_
  obtain ⟨rest', heq, hrest⟩ := hg a rest
  rw [heq]
  exact .pure hleads.safe (hrest ▸ hnear)

end EndsAs

/-! ## Names and brackets -/

theorem endsAs_nameAt (hc : c.Safe t) (h : Near t c.offset cs) :
    EndsAs t c t.nameAt (readName cs) := by
  obtain ⟨c₁, hskip, hleads, htail⟩ := skipBlanks_eq hc h
  obtain ⟨c₂, hrun, hleads₂, htail₂⟩ := skipWhile_eq isNameChar hleads.safe htail
  have hsplit : TailAt t c₁.offset
      ((skipBlanks cs).takeWhile isNameChar ++ (skipBlanks cs).dropWhile isNameChar) := by
    rwa [List.takeWhile_append_dropWhile]
  have hcut := cut_eq hsplit c₂
  rw [hsplit.append.unique htail₂] at hcut
  have hsafe := hleads₂.safe.cut hleads₂.le htail.isBoundary htail₂.isBoundary
  unfold nameAt
  refine .step hskip hleads (.offsetNow ?_)
  refine .step hrun hleads₂ (.offsetNow ?_)
  refine .step hcut ⟨hsafe, le_rfl⟩ ?_
  unfold readName
  dsimp only
  rw [String.toList_ofList]
  split
  · exact .pure hsafe (near_of_tailAt htail₂)
  · exact .failNow hsafe htail₂

theorem endsAs_bracketsAt (component : TypeRef) (hc : c.Safe t) (h : Near t c.offset cs) :
    EndsAs t c (t.bracketsAt component) (readBrackets component cs) := by
  obtain ⟨n, hn⟩ : ∃ n, cs.length ≤ n := ⟨_, le_rfl⟩
  induction n using Nat.strongRecOn generalizing cs c component with
  | ind n ih =>
    rw [bracketsAt, readBrackets]
    split
    · next hnone =>
      obtain ⟨c₁, heat, hleads, htail⟩ := eat_of_head?_ne hc h (readSymbol?_eq_none_iff.1 hnone)
      refine .step heat hleads ?_
      exact .pure hleads.safe (near_of_skipBlanks htail)
    · next inside hopen =>
      obtain ⟨c₁, heat, hleads, -, htail⟩ := eat_of_cons hc h (readSymbol?_eq_some hopen)
      refine .step heat hleads ?_
      rw [if_pos rfl]
      split
      · next hnone =>
        obtain ⟨c₂, heat₂, hleads₂, htail₂⟩ :=
          eat_of_head?_ne hleads.safe (near_of_tailAt htail) (readSymbol?_eq_none_iff.1 hnone)
        refine .step heat₂ hleads₂ ?_
        exact .failNow hleads₂.safe htail₂
      · next closing hclose =>
        obtain ⟨c₂, heat₂, hleads₂, -, htail₂⟩ :=
          eat_of_cons hleads.safe (near_of_tailAt htail) (readSymbol?_eq_some hclose)
        have hshort : closing.1.length < n :=
          (closing.length_lt.trans inside.length_lt).trans_le hn
        have hrest := ih _ hshort (.array component) hleads₂.safe (near_of_tailAt htail₂) le_rfl
        refine .step heat₂ hleads₂ ?_
        rw [if_pos rfl, ← bind_pure (t.bracketsAt _)]
        exact hrest.map fun u rest => ⟨_, rfl, rfl⟩

end Source

end Wiring.TypeRef
