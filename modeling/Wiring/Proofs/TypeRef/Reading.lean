import Wiring.Proofs.Except
import Wiring.Proofs.TypeRef.Token

/-!
# What the readers read

Each reader of type references as a relation between the characters that it is given, what it reads
and the characters that it leaves. The relations forget how far the readers got when they failed.
-/

namespace Wiring.TypeRef

open Text (Rest Remainder isBlank skipBlanks)

variable {cs rest : List Char} {t : TypeRef} {c : Char}

def ReadsName (cs : List Char) (name : String) (rest : List Char) : Prop :=
  ∃ r : Rest cs, readName cs = .ok (name, r) ∧ r.1 = rest

def ReadsBound (cs : List Char) (bound : Bound) (rest : List Char) : Prop :=
  ∃ r : Remainder cs, bound? cs = some (bound, r) ∧ r.1 = rest

def ReadsBrackets (component : TypeRef) (cs : List Char) (t : TypeRef) (rest : List Char) : Prop :=
  ∃ r : Remainder cs, readBrackets component cs = .ok (t, r) ∧ r.1 = rest

def ReadsHead (cs : List Char) (t : TypeRef) (rest : List Char) : Prop :=
  ∃ r : Rest cs, readHead cs = .ok (t, r) ∧ r.1 = rest

def ReadsType (cs : List Char) (t : TypeRef) (rest : List Char) : Prop :=
  ∃ r : Rest cs, readType cs = .ok (t, r) ∧ r.1 = rest

def ReadsArguments (cs : List Char) (args : List TypeRef) (rest : List Char) : Prop :=
  ∃ r : Rest cs, readArguments cs = .ok (args, r) ∧ r.1 = rest

/-! ## Symbols and names -/

theorem readSymbol?_eq_some {r : Rest cs} (h : readSymbol? c cs = some r) :
    skipBlanks cs = c :: r.1 := by
  unfold readSymbol? at h
  split at h
  · next d rest heq =>
    split at h
    · next hd =>
      cases h
      exact heq.trans (congrArg (· :: rest) hd)
    · cases h
  · cases h

theorem readSymbol?_of_skipBlanks (h : skipBlanks cs = c :: rest) :
    ∃ r : Rest cs, readSymbol? c cs = some r ∧ r.1 = rest := by
  unfold readSymbol?
  split
  · next d tail heq =>
    rw [heq] at h
    cases h
    simp
  · next heq =>
    rw [heq] at h
    cases h

theorem readSymbol?_eq_none_iff : readSymbol? c cs = none ↔ (skipBlanks cs).head? ≠ some c := by
  constructor
  · intro h hhead
    obtain ⟨rest, hrest⟩ := List.head?_eq_some_iff.1 hhead
    obtain ⟨r, hr, _⟩ := readSymbol?_of_skipBlanks hrest
    rw [h] at hr
    cases hr
  · intro h
    cases hr : readSymbol? c cs with
    | none => rfl
    | some r =>
      rw [readSymbol?_eq_some hr] at h
      exact absurd rfl h

/-- A name is the longest run of name characters after the blanks. -/
theorem readsName_iff {name : String} :
    ReadsName cs name rest ↔
      isName name.toList = true ∧ (∀ c ∈ name.toList, isNameChar c = true) ∧
      (∀ c, rest.head? = some c → isNameChar c = false) ∧
      skipBlanks cs = name.toList ++ rest := by
  constructor
  · intro h
    obtain ⟨r, hr, rfl⟩ := h
    unfold readName at hr
    dsimp only at hr
    split at hr
    · next hname =>
      cases hr
      rw [String.toList_ofList]
      refine ⟨hname, List.all_eq_true.1 List.all_takeWhile, ?_,
        List.takeWhile_append_dropWhile.symm⟩
      intro c hc
      have := List.head?_dropWhile_not isNameChar (skipBlanks cs)
      simpa [hc] using this
    · cases hr
  · intro h
    obtain ⟨hname, hchars, hrest, hcs⟩ := h
    have htake : (skipBlanks cs).takeWhile isNameChar = name.toList := by
      rw [hcs, List.takeWhile_append_of_pos hchars]
      cases rest with
      | nil => simp
      | cons c cs => simp [hrest c rfl]
    have hdrop : (skipBlanks cs).dropWhile isNameChar = rest := by
      rw [hcs, List.dropWhile_append_of_pos hchars]
      cases rest with
      | nil => simp
      | cons c cs => simp [hrest c rfl]
    unfold ReadsName readName
    simp [htake, hdrop, hname]

/-! ## Bounds -/

theorem afterKeyword?_eq_some_iff {word : List Char} :
    afterKeyword? word cs = some rest ↔ cs = word ++ rest ∧ rest.head?.any isBlank = true := by
  unfold afterKeyword?
  constructor
  · intro h
    split at h
    · next hword =>
      rw [Bool.and_eq_true, List.isPrefixOf_iff_prefix] at hword
      obtain ⟨⟨tail, rfl⟩, hblank⟩ := hword
      rw [List.drop_left] at h hblank
      cases h
      exact ⟨rfl, hblank⟩
    · cases h
  · rintro ⟨rfl, hblank⟩
    simp [hblank]

/-- The two keywords do not begin alike. -/
theorem keyword_append_ne {rest rest' : List Char} :
    Bound.upper.keyword ++ rest ≠ Bound.lower.keyword ++ rest' := by
  intro h
  have : ('e' : Char) = 's' := congrArg (fun cs => cs.headD 'e') h
  cases this

theorem readsBound_iff {bound : Bound} :
    ReadsBound cs bound rest ↔
      skipBlanks cs = bound.keyword ++ rest ∧ rest.head?.any isBlank = true := by
  constructor
  · rintro ⟨r, hr, rfl⟩
    unfold bound? at hr
    dsimp only at hr
    split at hr
    · next tail hupper =>
      cases hr
      exact afterKeyword?_eq_some_iff.1 hupper
    · next tail _ hlower =>
      cases hr
      exact afterKeyword?_eq_some_iff.1 hlower
    · cases hr
  · intro h
    have hrest := afterKeyword?_eq_some_iff.2 h
    unfold ReadsBound bound?
    dsimp only
    cases bound with
    | upper =>
      split
      · next tail hupper =>
        cases hrest.symm.trans hupper
        exact ⟨_, rfl, rfl⟩
      · next tail hnone _ => cases hrest.symm.trans hnone
      · next hnone _ => cases hrest.symm.trans hnone
    | lower =>
      split
      · next tail hupper =>
        have := (afterKeyword?_eq_some_iff.1 hupper).1
        exact absurd (this.symm.trans h.1) keyword_append_ne
      · next tail _ hlower =>
        cases hrest.symm.trans hlower
        exact ⟨_, rfl, rfl⟩
      · next _ hnone => cases hrest.symm.trans hnone

theorem bound?_eq_none_iff : bound? cs = none ↔ ∀ bound rest, ¬ ReadsBound cs bound rest := by
  constructor
  · rintro h bound rest ⟨r, hr, _⟩
    rw [h] at hr
    cases hr
  · intro h
    cases hr : bound? cs with
    | none => rfl
    | some br => exact absurd ⟨br.2, hr, rfl⟩ (h br.1 br.2.1)

/-! ## Types -/

theorem readsBrackets_iff {component : TypeRef} :
    ReadsBrackets component cs t rest ↔
      ((skipBlanks cs).head? ≠ some '[' ∧ t = component ∧ rest = cs) ∨
      ∃ inside after, skipBlanks cs = '[' :: inside ∧ skipBlanks inside = ']' :: after ∧
        ReadsBrackets (.array component) after t rest := by
  unfold ReadsBrackets
  rw [readBrackets]
  constructor
  · intro h
    obtain ⟨r, hr, rfl⟩ := h
    split at hr
    · next hnone =>
      cases hr
      exact .inl ⟨readSymbol?_eq_none_iff.1 hnone, rfl, rfl⟩
    · next inside hopen =>
      split at hr
      · cases hr
      · next closing hclose =>
        obtain ⟨⟨u, v⟩, huv, hr⟩ := bind_eq_ok_iff.1 hr
        cases hr
        exact .inr ⟨inside.1, closing.1, readSymbol?_eq_some hopen, readSymbol?_eq_some hclose,
          v, huv, rfl⟩
  · intro h
    rcases h with ⟨hnone, rfl, rfl⟩ | ⟨inside, after, hopen, hclose, v, hv, rfl⟩
    · rw [readSymbol?_eq_none_iff.2 hnone]
      exact ⟨_, rfl, rfl⟩
    · obtain ⟨opening, hopening, rfl⟩ := readSymbol?_of_skipBlanks hopen
      obtain ⟨closing, hclosing, rfl⟩ := readSymbol?_of_skipBlanks hclose
      rw [hopening]
      dsimp only
      rw [hclosing]
      exact ⟨_, bind_eq_ok_iff.2 ⟨(t, v), hv, rfl⟩, rfl⟩

theorem readsType_iff :
    ReadsType cs t rest ↔ ∃ head mid, ReadsHead cs head mid ∧ ReadsBrackets head mid t rest := by
  unfold ReadsType
  rw [readType]
  constructor
  · intro h
    obtain ⟨r, hr, rfl⟩ := h
    obtain ⟨⟨head, mid⟩, hhead, hr⟩ := bind_eq_ok_iff.1 hr
    obtain ⟨⟨u, v⟩, hbrackets, hr⟩ := bind_eq_ok_iff.1 hr
    cases hr
    exact ⟨head, mid.1, ⟨mid, hhead, rfl⟩, v, hbrackets, rfl⟩
  · intro h
    obtain ⟨head, _, ⟨mid, hhead, rfl⟩, v, hbrackets, rfl⟩ := h
    exact ⟨_, bind_eq_ok_iff.2 ⟨(head, mid), hhead, bind_eq_ok_iff.2 ⟨(t, v), hbrackets, rfl⟩⟩, rfl⟩

/-- What is read behind the mark of a wildcard. -/
theorem readsHead_iff_of_mark {mark : List Char} (hmark : skipBlanks cs = '?' :: mark) :
    ReadsHead cs t rest ↔
      (∀ bound rest, ¬ ReadsBound mark bound rest) ∧ t = wildcard ∧ rest = mark ∨
      ∃ bound after u, ReadsBound mark bound after ∧ ReadsType after u rest ∧ t = bound.apply u := by
  obtain ⟨mark, hsymbol, rfl⟩ := readSymbol?_of_skipBlanks hmark
  unfold ReadsHead
  rw [readHead, hsymbol]
  dsimp only
  constructor
  · intro h
    obtain ⟨r, hr, rfl⟩ := h
    split at hr
    · next hnone =>
      cases hr
      exact .inl ⟨bound?_eq_none_iff.1 hnone, rfl, rfl⟩
    · next bound keyword hbound =>
      obtain ⟨⟨u, v⟩, htype, hr⟩ := bind_eq_ok_iff.1 hr
      cases hr
      exact .inr ⟨bound, keyword.1, u, ⟨keyword, hbound, rfl⟩, ⟨v, htype, rfl⟩, rfl⟩
  · intro h
    rcases h with ⟨hnone, rfl, rfl⟩ | ⟨bound, _, u, ⟨keyword, hbound, rfl⟩, ⟨v, hu, rfl⟩, rfl⟩
    · rw [bound?_eq_none_iff.2 hnone]
      exact ⟨_, rfl, rfl⟩
    · rw [hbound]
      exact ⟨_, bind_eq_ok_iff.2 ⟨(u, v), hu, rfl⟩, rfl⟩

/-- What is read where there is no wildcard. -/
theorem readsHead_iff_of_no_mark (hmark : (skipBlanks cs).head? ≠ some '?') :
    ReadsHead cs t rest ↔
      ∃ name after, ReadsName cs name after ∧
        ((takesArguments name = false ∨ (skipBlanks after).head? ≠ some '<') ∧
            t = ofName name [] ∧ rest = after ∨
          takesArguments name = true ∧ ∃ inside args, skipBlanks after = '<' :: inside ∧
            ReadsArguments inside args rest ∧ t = ofName name args) := by
  unfold ReadsHead
  rw [readHead, readSymbol?_eq_none_iff.2 hmark]
  dsimp only
  constructor
  · intro h
    obtain ⟨r, hr, rfl⟩ := h
    obtain ⟨⟨name, after⟩, hname, hr⟩ := bind_eq_ok_iff.1 hr
    refine ⟨name, after.1, ⟨after, hname, rfl⟩, ?_⟩
    dsimp only at hr
    split at hr
    · next htakes =>
      split at hr
      · next hnone =>
        cases hr
        exact .inl ⟨.inr (readSymbol?_eq_none_iff.1 hnone), rfl, rfl⟩
      · next opening hopen =>
        obtain ⟨⟨args, v⟩, hargs, hr⟩ := bind_eq_ok_iff.1 hr
        cases hr
        exact .inr ⟨htakes, opening.1, args, readSymbol?_eq_some hopen, ⟨v, hargs, rfl⟩, rfl⟩
    · next htakes =>
      cases hr
      exact .inl ⟨.inl (Bool.eq_false_iff.2 htakes), rfl, rfl⟩
  · rintro ⟨name, _, ⟨after, hname, rfl⟩,
      ⟨hplain, rfl, rfl⟩ | ⟨htakes, inside, args, hopen, ⟨v, hargs, rfl⟩, rfl⟩⟩
    · refine ⟨after, bind_eq_ok_iff.2 ⟨(name, after), hname, ?_⟩, rfl⟩
      rcases hplain with htakes | hnone
      · simp [htakes, pure, Except.pure]
      · simp [readSymbol?_eq_none_iff.2 hnone, pure, Except.pure]
    · obtain ⟨opening, hopening, rfl⟩ := readSymbol?_of_skipBlanks hopen
      refine ⟨(after.andThenRest opening).andThenRest v,
        bind_eq_ok_iff.2 ⟨(name, after), hname, ?_⟩, rfl⟩
      simp only [htakes, if_true, hopening]
      exact bind_eq_ok_iff.2 ⟨(args, v), hargs, rfl⟩

theorem readsArguments_iff {args : List TypeRef} :
    ReadsArguments cs args rest ↔
      ∃ arg next, ReadsType cs arg next ∧
        ((∃ after args', skipBlanks next = ',' :: after ∧ ReadsArguments after args' rest ∧
            args = arg :: args') ∨
          skipBlanks next = '>' :: rest ∧ args = [arg]) := by
  unfold ReadsArguments
  rw [readArguments]
  constructor
  · intro h
    obtain ⟨r, hr, rfl⟩ := h
    obtain ⟨⟨arg, next⟩, harg, hr⟩ := bind_eq_ok_iff.1 hr
    refine ⟨arg, next.1, ⟨next, harg, rfl⟩, ?_⟩
    dsimp only at hr
    split at hr
    · next comma hcomma =>
      obtain ⟨⟨args', v⟩, hargs, hr⟩ := bind_eq_ok_iff.1 hr
      cases hr
      exact .inl ⟨comma.1, args', readSymbol?_eq_some hcomma, ⟨v, hargs, rfl⟩, rfl⟩
    · next closing _ hclose =>
      cases hr
      exact .inr ⟨readSymbol?_eq_some hclose, rfl⟩
    · cases hr
  · rintro ⟨arg, _, ⟨next, harg, rfl⟩,
      ⟨after, args', hcomma, ⟨v, hargs, rfl⟩, rfl⟩ | ⟨hclose, rfl⟩⟩
    · obtain ⟨comma, hsymbol, rfl⟩ := readSymbol?_of_skipBlanks hcomma
      refine ⟨(next.andThenRest comma).andThenRest v,
        bind_eq_ok_iff.2 ⟨(arg, next), harg, ?_⟩, rfl⟩
      simp only [hsymbol]
      exact bind_eq_ok_iff.2 ⟨(args', v), hargs, rfl⟩
    · have hcomma : readSymbol? ',' next.1 = none := by
        rw [readSymbol?_eq_none_iff, hclose]
        simp
      obtain ⟨closing, hclosing, rfl⟩ := readSymbol?_of_skipBlanks hclose
      refine ⟨next.andThenRest closing, bind_eq_ok_iff.2 ⟨(arg, next), harg, ?_⟩, rfl⟩
      simp only [hcomma, hclosing]
      rfl

theorem parse_eq_ok_iff_reads {input : String} :
    parse input = .ok t ↔ ∃ rest, ReadsType input.toList t rest ∧ skipBlanks rest = [] := by
  unfold parse ReadsType
  constructor
  · intro h
    split at h
    · cases h
    · next u rest hread =>
      split at h
      · next hrest =>
        cases h
        exact ⟨rest.1, ⟨rest, hread, rfl⟩, hrest⟩
      · cases h
  · rintro ⟨_, ⟨rest, hread, rfl⟩, hrest⟩
    rw [hread]
    dsimp only
    rw [hrest]

end Wiring.TypeRef
