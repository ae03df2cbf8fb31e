import Wiring.Proofs.TypeRef.Spelling

/-!
# What is spelled is read

The readers yield a well-formed reference where its tokens are spelled, and leave what comes after
them. The proof is by the structure of the reference.
-/

namespace Wiring.TypeRef

open Text (isBlank skipBlanks skipBlanks_append skipBlanks_cons)

variable {cs mid rest : List Char} {t : TypeRef} {ts : List Token}

/-- What may follow a reference up to its brackets: nothing, or a symbol that ends it. -/
def Follows (ts : List Token) : Prop :=
  ∀ token, ts.head? = some token → ∃ c ∈ [',', '>', '['], token = .symbol c

theorem follows_symbol {c : Char} (hc : c ∈ [',', '>', '[']) (ts : List Token) :
    Follows (.symbol c :: ts) := by
  rintro token htoken
  cases htoken
  exact ⟨c, hc, rfl⟩

/-- After the blanks, what follows is nothing or the first of its symbols. -/
theorem Follows.head_skipBlanks (hf : Follows ts) (h : Spaced ts rest) {c : Char}
    (hc : (skipBlanks rest).head? = some c) : c ∈ [',', '>', '['] ∧ ts.head? = some (.symbol c) := by
  cases ts with
  | nil =>
    cases h with
    | nil hblanks =>
      have hnil := skipBlanks_append hblanks []
      rw [List.append_nil] at hnil
      rw [hnil] at hc
      cases hc
  | cons token ts =>
    obtain ⟨d, hd, rfl⟩ := hf token rfl
    have hsymbols : [',', '>', '['].all (isBlank · == false) = true := by decide
    have hblank : isBlank d = false := beq_iff_eq.1 (List.all_eq_true.1 hsymbols d hd)
    obtain ⟨tail, htail, _⟩ := h.uncons_symbol hblank
    rw [htail] at hc
    cases hc
    exact ⟨hd, rfl⟩

/-- What follows a name does not prolong it. -/
theorem not_isNameChar_head {symbols : List Char}
    (hsymbols : symbols.all (isNameChar · == false) = true)
    (h : ∀ c, (skipBlanks rest).head? = some c → c ∈ symbols) {c : Char}
    (hc : rest.head? = some c) : isNameChar c = false := by
  cases hblank : isBlank c with
  | true => exact isNameChar_of_isBlank hblank
  | false =>
    obtain ⟨tail, rfl⟩ := List.head?_eq_some_iff.1 hc
    exact beq_iff_eq.1 (List.all_eq_true.1 hsymbols c (h c (by rw [skipBlanks_cons hblank]; rfl)))

/-- Brackets that have been read, from the outside of a component. -/
inductive Brackets (head : TypeRef) (cs : List Char) : TypeRef → List Char → Prop
  | none : Brackets head cs head cs
  | more {component : TypeRef} {mid inside rest : List Char}
      (h : Brackets head cs component mid) (hopen : skipBlanks mid = '[' :: inside)
      (hclose : skipBlanks inside = ']' :: rest) : Brackets head cs (.array component) rest

theorem Brackets.reads {head component : TypeRef} (h : Brackets head cs component mid)
    (hr : ReadsBrackets component mid t rest) : ReadsBrackets head cs t rest := by
  induction h with
  | none => exact hr
  | more _ hopen hclose ih => exact ih (readsBrackets_iff.2 (.inr ⟨_, _, hopen, hclose, hr⟩))

/-- A reference is read from `cs` up to `rest`, where more brackets may follow. -/
def ReadsSoFar (cs : List Char) (t : TypeRef) (rest : List Char) : Prop :=
  ∃ head mid, ReadsHead cs head mid ∧ Brackets head mid t rest

theorem ReadsSoFar.readsType (h : ReadsSoFar cs t rest) (hnone : NoBracket rest) :
    ReadsType cs t rest := by
  obtain ⟨head, mid, hhead, hbrackets⟩ := h
  exact readsType_iff.2
    ⟨head, mid, hhead, hbrackets.reads (readsBrackets_iff.2 (.inl ⟨hnone, rfl, rfl⟩))⟩

theorem Follows.noBracket (hf : Follows ts) (h : Spaced ts rest)
    (hne : ts.head? ≠ some (.symbol '[')) : NoBracket rest :=
  fun hbracket => hne (hf.head_skipBlanks h hbracket).2

/-- A name is read where one is spelled, and no wildcard. -/
theorem readsName_of_spaced {name : String} (hname : isName name.toList = true)
    (hchars : ∀ c ∈ name.toList, isNameChar c = true) (h : Spaced (.name name :: ts) cs)
    (hnext : ∀ rest, Spaced ts rest → ∀ c, (skipBlanks rest).head? = some c →
      c ∈ [',', '>', '[', '<']) :
    ∃ rest, (skipBlanks cs).head? ≠ some '?' ∧ ReadsName cs name rest ∧ Spaced ts rest := by
  have hne := isName_ne_nil hname
  obtain ⟨rest, hcs, hrest⟩ := h.uncons_name hne hchars
  obtain ⟨c, tail, hword⟩ := List.exists_cons_of_ne_nil hne
  refine ⟨rest, ?_, readsName_iff.2 ⟨hname, hchars, ?_, hcs⟩, hrest⟩
  · rw [hcs, hword]
    intro hc
    have hchar := hchars c (by simp [hword])
    cases hc
    revert hchar
    decide
  · intro c hc
    exact not_isNameChar_head (by decide) (hnext rest hrest) hc

/-- A name without arguments is read where one is spelled. -/
theorem readsSoFar_ofName (name : String) (hname : isName name.toList = true)
    (hchars : ∀ c ∈ name.toList, isNameChar c = true) (h : Spaced (.name name :: ts) cs)
    (hf : Follows ts) : ∃ rest, ReadsSoFar cs (ofName name []) rest ∧ Spaced ts rest := by
  obtain ⟨rest, hmark, hread, hrest⟩ := readsName_of_spaced hname hchars h fun rest hrest c hc =>
    List.mem_append_left ['<'] (hf.head_skipBlanks hrest hc).1
  have hopen : (skipBlanks rest).head? ≠ some '<' := fun hc =>
    absurd (hf.head_skipBlanks hrest hc).1 (by decide)
  refine ⟨rest, ⟨_, rest, ?_, .none⟩, hrest⟩
  exact (readsHead_iff_of_no_mark hmark).2 ⟨name, rest, hread, .inl ⟨.inr hopen, rfl, rfl⟩⟩

/-- The wildcard is read where one is spelled: what follows it is no bound. -/
theorem readsSoFar_wildcard (h : Spaced (.symbol '?' :: ts) cs) (hf : Follows ts) :
    ∃ rest, ReadsSoFar cs wildcard rest ∧ Spaced ts rest := by
  obtain ⟨mark, hmark, hrest⟩ := h.uncons_symbol rfl
  refine ⟨mark, ⟨_, mark, ?_, .none⟩, hrest⟩
  refine (readsHead_iff_of_mark hmark).2 (.inl ⟨fun bound rest hbound => ?_, rfl, rfl⟩)
  have hcs := (readsBound_iff.1 hbound).1
  cases bound with
  | upper => exact absurd (hf.head_skipBlanks hrest (by rw [hcs]; rfl)).1 (by decide : 'e' ∉ _)
  | lower => exact absurd (hf.head_skipBlanks hrest (by rw [hcs]; rfl)).1 (by decide : 's' ∉ _)

/-- A bounded wildcard is read where one is spelled. -/
theorem readsSoFar_bound {u : TypeRef} (bound : Bound)
    (h : Spaced (.symbol '?' :: .keyword bound :: (u.tokens ++ ts)) cs)
    (hu : ∀ cs, Spaced (u.tokens ++ ts) cs → ∃ rest, ReadsType cs u rest ∧ Spaced ts rest) :
    ∃ rest, ReadsSoFar cs (bound.apply u) rest ∧ Spaced ts rest := by
  obtain ⟨mark, hmark, hrest⟩ := h.uncons_symbol rfl
  obtain ⟨after, hbound, hrest⟩ := hrest.uncons_keyword
  obtain ⟨rest, hread, hrest⟩ := hu after hrest
  refine ⟨rest, ⟨_, rest, ?_, .none⟩, hrest⟩
  exact (readsHead_iff_of_mark hmark).2 (.inr ⟨bound, after, u, hbound, hread, rfl⟩)

/-- What comes behind an argument: the closing bracket, or a comma and the other arguments. -/
def ReadsTail (cs : List Char) (args : List TypeRef) (rest : List Char) : Prop :=
  args = [] ∧ skipBlanks cs = '>' :: rest ∨
    ∃ after, skipBlanks cs = ',' :: after ∧ ReadsArguments after args rest

theorem ReadsTail.readsArguments {arg : TypeRef} {args : List TypeRef}
    (h : ReadsTail mid args rest) (harg : ReadsType cs arg mid) :
    ReadsArguments cs (arg :: args) rest := by
  refine readsArguments_iff.2 ⟨arg, mid, harg, ?_⟩
  rcases h with ⟨rfl, hclose⟩ | ⟨after, hcomma, hargs⟩
  · exact .inr ⟨hclose, rfl⟩
  · exact .inl ⟨after, args, hcomma, hargs, rfl⟩

/-- What follows an argument. -/
theorem follows_tokensTail (args : List TypeRef) (ts : List Token) :
    Follows (tokensTail args ++ ts) ∧ (tokensTail args ++ ts).head? ≠ some (.symbol '[') := by
  cases args with
  | nil => exact ⟨follows_symbol (by decide) _, by simp [tokensTail]⟩
  | cons arg args => exact ⟨follows_symbol (by decide) _, by simp [tokensTail]⟩

mutual

/-- **What is spelled is read**, up to brackets that may follow. -/
theorem readsSoFar_of_spaced : (t : TypeRef) → t.WellFormed → ∀ {ts cs},
    Spaced (t.tokens ++ ts) cs → Follows ts →
    (t.takesBrackets = false → ts.head? ≠ some (.symbol '[')) →
    ∃ rest, ReadsSoFar cs t rest ∧ Spaced ts rest
  | void, _, _, _, h, hf, _ =>
    readsSoFar_ofName "void" rfl (List.all_eq_true.1 (by decide)) h hf
  | primitive kind, _, ts, cs, h, hf, _ => by
    obtain ⟨_, hkind, hname, hchars⟩ := ofName_keyword kind
    rw [← hkind]
    exact readsSoFar_ofName _ hname hchars h hf
  | declared name [], hw, ts, cs, h, hf, _ => by
    rw [← ofName_of_takesArguments hw.1.takesArguments]
    exact readsSoFar_ofName _ hw.1.isName hw.1.chars h hf
  | declared name (arg :: args), hw, ts, cs, h, _, _ => by
    obtain ⟨hclass, harg, hargs⟩ := hw
    rw [tokens, List.cons_append, List.cons_append, List.append_assoc] at h
    obtain ⟨after, hmark, hname, hafter⟩ :=
      readsName_of_spaced hclass.isName hclass.chars h fun rest hrest c hc => by
        obtain ⟨tail, htail, _⟩ := hrest.uncons_symbol rfl
        rw [htail] at hc
        cases hc
        decide
    obtain ⟨inside, hopen, hinside⟩ := hafter.uncons_symbol rfl
    obtain ⟨hfollows, hbracket⟩ := follows_tokensTail args ts
    obtain ⟨next, hread, hnext⟩ :=
      readsSoFar_of_spaced arg harg hinside hfollows fun _ => hbracket
    obtain ⟨rest, hrest, htail⟩ := readsTail_of_spaced args hargs hnext
    -- a comma or the closing bracket comes behind the argument, so its brackets end there
    have hreads := htail.readsArguments (hread.readsType (hfollows.noBracket hnext hbracket))
    refine ⟨rest, ⟨_, rest, ?_, .none⟩, hrest⟩
    refine (readsHead_iff_of_no_mark hmark).2 ⟨name, after, hname, .inr ?_⟩
    exact ⟨hclass.takesArguments, inside, _, hopen, hreads,
      (ofName_of_takesArguments hclass.takesArguments _).symm⟩
  | wildcard, _, _, _, h, hf, _ => readsSoFar_wildcard h hf
  | wildcardExtends bound, hw, ts, cs, h, hf, hb =>
    readsSoFar_bound .upper h fun cs hcs => by
      obtain ⟨rest, hread, hrest⟩ := readsSoFar_of_spaced bound hw hcs hf fun _ => hb rfl
      exact ⟨rest, hread.readsType (hf.noBracket hrest (hb rfl)), hrest⟩
  | wildcardSuper bound, hw, ts, cs, h, hf, hb =>
    readsSoFar_bound .lower h fun cs hcs => by
      obtain ⟨rest, hread, hrest⟩ := readsSoFar_of_spaced bound hw hcs hf fun _ => hb rfl
      exact ⟨rest, hread.readsType (hf.noBracket hrest (hb rfl)), hrest⟩
  | array component, hw, ts, cs, h, hf, _ => by
    rw [tokens, List.append_assoc] at h
    obtain ⟨mid, ⟨head, start, hhead, hbrackets⟩, hmid⟩ :=
      readsSoFar_of_spaced component hw.1 h (follows_symbol (by decide) _)
        fun hfalse => by rw [hw.2] at hfalse; cases hfalse
    obtain ⟨inside, hopen, hinside⟩ := hmid.uncons_symbol rfl
    obtain ⟨rest, hclose, hrest⟩ := hinside.uncons_symbol rfl
    exact ⟨rest, ⟨head, start, hhead, hbrackets.more hopen hclose⟩, hrest⟩

theorem readsTail_of_spaced : (args : List TypeRef) → AllWellFormed args → ∀ {ts cs},
    Spaced (tokensTail args ++ ts) cs → ∃ rest, Spaced ts rest ∧ ReadsTail cs args rest
  | [], _, ts, cs, h => by
    obtain ⟨rest, hclose, hrest⟩ := h.uncons_symbol rfl
    exact ⟨rest, hrest, .inl ⟨rfl, hclose⟩⟩
  | arg :: args, hw, ts, cs, h => by
    rw [tokensTail, List.cons_append, List.append_assoc] at h
    obtain ⟨after, hcomma, hafter⟩ := h.uncons_symbol rfl
    obtain ⟨hfollows, hbracket⟩ := follows_tokensTail args ts
    obtain ⟨next, hread, hnext⟩ :=
      readsSoFar_of_spaced arg hw.1 hafter hfollows fun _ => hbracket
    obtain ⟨rest, hrest, htail⟩ := readsTail_of_spaced args hw.2 hnext
    have hreads := htail.readsArguments (hread.readsType (hfollows.noBracket hnext hbracket))
    exact ⟨rest, hrest, .inr ⟨after, hcomma, hreads⟩⟩

end

end Wiring.TypeRef
