import Wiring.Proofs.TypeRef.Spelling

/-!
# What is read is spelled

A reference that a reader yields is well formed, and the characters that were read for it spell its
tokens. The proof is by the length of the text, since every reader asks another one only about a
shorter text.
-/

namespace Wiring.TypeRef

open Text (isBlank skipBlanks length_skipBlanks_le)

variable {cs rest : List Char} {t : TypeRef} {c : Char}

/-- What is read from `cs` up to `rest`: a well-formed reference, spelled by the characters
between. -/
def Spells (cs : List Char) (t : TypeRef) (rest : List Char) : Prop :=
  t.WellFormed ∧ ∀ ts, Spaced ts rest → Spaced (t.tokens ++ ts) cs

/-- The same for the arguments of a class with its closing bracket. -/
def SpellsArguments (cs : List Char) (args : List TypeRef) (rest : List Char) : Prop :=
  AllWellFormed args ∧ ∃ arg args', args = arg :: args' ∧
    ∀ ts, Spaced ts rest → Spaced (arg.tokens ++ (tokensTail args' ++ ts)) cs

theorem length_lt_of_skipBlanks (h : skipBlanks cs = c :: rest) : rest.length < cs.length := by
  have := length_skipBlanks_le cs
  rw [h] at this
  exact this

theorem length_le_of_readsBound {bound : Bound} (h : ReadsBound cs bound rest) :
    rest.length ≤ cs.length := by
  obtain ⟨r, _, rfl⟩ := h
  exact r.2

theorem length_lt_of_readsType (h : ReadsType cs t rest) : rest.length < cs.length := by
  obtain ⟨r, _, rfl⟩ := h
  exact r.2

/-- Brackets that are read go on with the spelling of the component. -/
theorem spells_of_readsBrackets {component : TypeRef} {start : List Char}
    (h : Spells start component cs) (hb : component.takesBrackets = false → NoBracket cs)
    (hr : ReadsBrackets component cs t rest) : Spells start t rest ∧ NoBracket rest := by
  induction hn : cs.length using Nat.strongRecOn generalizing cs component with
  | ind n ih =>
    rcases readsBrackets_iff.1 hr with ⟨hnone, rfl, rfl⟩ | ⟨inside, after, hopen, hclose, hr⟩
    · exact ⟨h, hnone⟩
    · have htakes : component.takesBrackets = true := by
        cases htakes : component.takesBrackets with
        | true => rfl
        | false => exact absurd (by rw [hopen]; rfl) (hb htakes)
      have harray : Spells start (.array component) after := by
        refine ⟨⟨h.1, htakes⟩, fun ts hts => ?_⟩
        have := h.2 _ (.symbol_of_skipBlanks hopen (.symbol_of_skipBlanks hclose hts))
        simpa [tokens] using this
      have hshort : after.length < n := by
        have := length_lt_of_skipBlanks hopen
        have := length_lt_of_skipBlanks hclose
        omega
      refine ih _ hshort harray (fun hfalse => ?_) hr rfl
      rw [takesBrackets, htakes] at hfalse
      cases hfalse

/-- A name without arguments. -/
theorem spells_ofName {name : String} (hname : ReadsName cs name rest) :
    Spells cs (ofName name []) rest := by
  obtain ⟨hisName, hchars, _, hcs⟩ := readsName_iff.1 hname
  have hspaced : ∀ ts, Spaced ts rest → Spaced (.name name :: ts) cs :=
    fun ts hts => .of_skipBlanks (.name name) hcs nofun hts
  by_cases hvoid : name = "void"
  · subst hvoid
    exact ⟨trivial, hspaced⟩
  · cases hkind : Primitive.ofKeyword? name with
    | some kind =>
      have hprimitive : ofName name [] = primitive kind := by simp [ofName, hvoid, hkind]
      rw [hprimitive]
      refine ⟨trivial, fun ts hts => ?_⟩
      rw [tokens, keyword_of_ofKeyword? hkind]
      exact hspaced ts hts
    | none =>
      have htakes : takesArguments name = true := by simp [takesArguments, hvoid, hkind]
      rw [ofName_of_takesArguments htakes]
      exact ⟨⟨isClassName_of_isName hisName hchars htakes, trivial⟩, hspaced⟩

/-- One step: a reference up to its brackets, from the types and arguments of shorter texts. -/
theorem spells_of_readsHead
    (htype : ∀ cs' t rest, cs'.length < cs.length → ReadsType cs' t rest →
      Spells cs' t rest ∧ NoBracket rest)
    (hargs : ∀ cs' args rest, cs'.length < cs.length → ReadsArguments cs' args rest →
      SpellsArguments cs' args rest)
    (h : ReadsHead cs t rest) :
    Spells cs t rest ∧ (t.takesBrackets = false → NoBracket rest) := by
  by_cases hmark : (skipBlanks cs).head? = some '?'
  · obtain ⟨mark, hmark⟩ := List.head?_eq_some_iff.1 hmark
    rcases (readsHead_iff_of_mark hmark).1 h with ⟨_, rfl, rfl⟩ | ⟨bound, after, u, hbound, hu, rfl⟩
    · exact ⟨⟨trivial, fun ts hts => .symbol_of_skipBlanks hmark hts⟩, nofun⟩
    · have hshort : after.length < cs.length :=
        Nat.lt_of_le_of_lt (length_le_of_readsBound hbound) (length_lt_of_skipBlanks hmark)
      obtain ⟨⟨hwell, hspaced⟩, hnone⟩ := htype after u rest hshort hu
      obtain ⟨hafter, hblank⟩ := readsBound_iff.1 hbound
      have hkeyword : ∀ ts, Spaced ts rest →
          Spaced (.symbol '?' :: .keyword bound :: (u.tokens ++ ts)) cs := fun ts hts =>
        .symbol_of_skipBlanks hmark <|
          .of_skipBlanks (.keyword bound) hafter (fun _ _ => hblank) (hspaced ts hts)
      cases bound with
      | upper => exact ⟨⟨hwell, hkeyword⟩, fun _ => hnone⟩
      | lower => exact ⟨⟨hwell, hkeyword⟩, fun _ => hnone⟩
  · obtain ⟨name, after, hname, ⟨_, rfl, rfl⟩ | ⟨htakes, inside, args, hopen, hread, rfl⟩⟩ :=
      (readsHead_iff_of_no_mark hmark).1 h
    · refine ⟨spells_ofName hname, fun hfalse => ?_⟩
      unfold ofName at hfalse
      split at hfalse
      · cases hfalse
      · split at hfalse <;> cases hfalse
    · rw [ofName_of_takesArguments htakes]
      obtain ⟨hisName, hchars, _, hcs⟩ := readsName_iff.1 hname
      have hshort : inside.length < cs.length := by
        obtain ⟨r, _, rfl⟩ := hname
        exact Nat.lt_trans (length_lt_of_skipBlanks hopen) r.2
      obtain ⟨hwell, arg, args', rfl, hspaced⟩ := hargs inside args rest hshort hread
      refine ⟨⟨⟨isClassName_of_isName hisName hchars htakes, hwell⟩, fun ts hts => ?_⟩, nofun⟩
      have := Spaced.symbol_of_skipBlanks hopen (hspaced ts hts)
      have := Spaced.of_skipBlanks (.name name) hcs nofun this
      simpa [tokens] using this

/-- **What is read is well formed and spelled by what was read**, for all texts of one length or
less. -/
theorem spells_of_reads (n : Nat) :
    (∀ cs t rest, cs.length ≤ n → ReadsType cs t rest → Spells cs t rest ∧ NoBracket rest) ∧
    (∀ cs args rest, cs.length ≤ n → ReadsArguments cs args rest →
      SpellsArguments cs args rest) := by
  induction n using Nat.strongRecOn with
  | ind n ih =>
    -- types come first, for the first argument of a class begins where the arguments do
    have htype : ∀ cs t rest, cs.length ≤ n → ReadsType cs t rest →
        Spells cs t rest ∧ NoBracket rest := by
      intro cs t rest hn h
      obtain ⟨head, mid, hhead, hbrackets⟩ := readsType_iff.1 h
      have := spells_of_readsHead
        (fun cs' t rest hlt => (ih cs'.length (by omega)).1 cs' t rest (Nat.le_refl _))
        (fun cs' args rest hlt => (ih cs'.length (by omega)).2 cs' args rest (Nat.le_refl _)) hhead
      exact spells_of_readsBrackets this.1 this.2 hbrackets
    refine ⟨htype, fun cs args rest hn h => ?_⟩
    obtain ⟨arg, next, harg, ⟨after, args', hcomma, hargs, rfl⟩ | ⟨hclose, rfl⟩⟩ :=
      readsArguments_iff.1 h
    · obtain ⟨⟨hwell, hspaced⟩, _⟩ := htype cs arg next hn harg
      have hshort : after.length < n := by
        have := length_lt_of_readsType harg
        have := length_lt_of_skipBlanks hcomma
        omega
      obtain ⟨hwells, arg', args'', rfl, hspaceds⟩ :=
        (ih _ hshort).2 after args' rest (Nat.le_refl _) hargs
      refine ⟨⟨hwell, hwells⟩, arg, arg' :: args'', rfl, fun ts hts => ?_⟩
      have := hspaced _ (.symbol_of_skipBlanks hcomma (hspaceds ts hts))
      simpa [tokensTail] using this
    · obtain ⟨⟨hwell, hspaced⟩, _⟩ := htype cs arg next hn harg
      exact ⟨⟨hwell, trivial⟩, arg, [], rfl,
        fun ts hts => hspaced _ (.symbol_of_skipBlanks hclose hts)⟩

end Wiring.TypeRef
