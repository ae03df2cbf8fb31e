import Wiring.Error.Basic
import Wiring.Proofs.TypeRef.Source

/-!
# The reader at offsets ends

The reader that moves a cursor over the bytes of a text comes to an end, and with what `parse` says of
the text. On its way the cursor goes forward only and stays between characters, no slice is taken that
cannot be taken, and what is read as a part of a type begins behind the beginning of that type. The
proof is by the number of characters that are unread.
-/

namespace Wiring.TypeRef.Source

open Cursor (Leads)
open Text (IsBoundary TailAt Rest Remainder skipBlanks)

variable {t : Source} {c : Cursor} {i start : Nat} {cs rest : List Char} {bound : Bound}

/-! ## Parts -/

/-- A part is begun behind the type that it is a part of. -/
theorem endsAs_partAt (hc : c.Safe t) (hstart : start < c.offset)
    (htype : ∀ c', c'.Safe t → Near t c'.offset cs → EndsAs t c' t.typeAt (readType cs))
    (h : Near t c.offset cs) : EndsAs t c (t.partAt start) (readType cs) := by
  have hbegun : Leads t c (c.beginPart start) := ⟨hc.beginPart hstart, le_rfl⟩
  have hmodify : (modify (·.beginPart start) : Reader Unit) c =
      some (.ok (), c.beginPart start) := rfl
  rw [partAt]
  exact .step hmodify hbegun (htype _ hbegun.safe h)

theorem boundOf?_skipBlanks (cs : List Char) :
    boundOf? (skipBlanks cs) = (bound? cs).map (·.1) := by
  unfold boundOf? bound?
  dsimp only
  split
  · next hupper => simp [hupper]
  · next hupper hlower => simp [hupper, hlower]
  · next hupper hlower => simp [hupper, hlower]

section Wildcards

variable {q : List Char → Prop}

theorem endsAs_wildcardAt_of_none {mark : { rest : List Char // q rest }} (hc : c.Safe t)
    (h : Near t c.offset mark.1) (hnone : bound? mark.1 = none) :
    EndsAs t c (t.wildcardAt start) (.ok (wildcard, mark)) := by
  obtain ⟨c₁, hskip, hleads, htail⟩ := skipBlanks_eq hc h
  obtain ⟨c₂, hbehind, hleads₂, htail₂⟩ := behind_eq hleads.safe htail
  rw [wildcardAt]
  refine .step hskip hleads (.step hbehind hleads₂ ?_)
  rw [String.toList_ofList, boundOf?_skipBlanks, hnone]
  exact .pure hleads₂.safe (near_of_skipBlanks htail₂)

/-- Behind its keyword the type of a bound is read. -/
theorem endsAs_wildcardAt_of_some {keyword : Remainder cs}
    {g : TypeRef × Rest keyword.1 → Except Stop (TypeRef × { rest : List Char // q rest })}
    (hc : c.Safe t) (hstart : start < c.offset) (h : Near t c.offset cs)
    (hbound : bound? cs = some (bound, keyword))
    (htype : ∀ c', c'.Safe t → Near t c'.offset keyword.1 →
      EndsAs t c' t.typeAt (readType keyword.1))
    (hg : ∀ u rest, ∃ rest', g (u, rest) = .ok (bound.apply u, rest') ∧ rest'.1 = rest.1) :
    EndsAs t c (t.wildcardAt start) (readType keyword.1 >>= g) := by
  obtain ⟨c₁, hskip, hleads, htail⟩ := skipBlanks_eq hc h
  obtain ⟨c₂, hbehind, hleads₂, htail₂⟩ := behind_eq hleads.safe htail
  have hkeyword := (readsBound_iff.1 ⟨keyword, hbound, rfl⟩).1
  obtain ⟨c₃, hadvance, hleads₃, htail₃⟩ := advance_eq hleads₂.safe (hkeyword ▸ htail₂)
  have hle : c.offset ≤ c₃.offset := (hleads.trans (hleads₂.trans hleads₃)).le
  rw [wildcardAt]
  refine .step hskip hleads (.step hbehind hleads₂ ?_)
  rw [String.toList_ofList, boundOf?_skipBlanks, hbound]
  refine .step hadvance hleads₃ ?_
  exact (endsAs_partAt hleads₃.safe (hstart.trans_le hle) htype (near_of_tailAt htail₃)).map hg

end Wildcards

/-! ## Types -/

/-- One step: a type up to its brackets, from the types and arguments of shorter texts. -/
theorem endsAs_headAt
    (htype : ∀ cs' c', cs'.length < cs.length → c'.Safe t → Near t c'.offset cs' →
      EndsAs t c' t.typeAt (readType cs'))
    (hargs : ∀ cs' c', cs'.length < cs.length → c'.Safe t → start < c'.offset →
      Near t c'.offset cs' → EndsAs t c' (t.argumentsAt start) (readArguments cs'))
    (hc : c.Safe t) (hstart : start ≤ c.offset) (h : Near t c.offset cs) :
    EndsAs t c (t.headAt start) (readHead cs) := by
  rw [headAt, readHead]
  split
  · next mark hmark =>
    -- a wildcard, whose bound is a part of it
    obtain ⟨c₁, heat, hleads, hlt, htail⟩ := eat_of_cons hc h (readSymbol?_eq_some hmark)
    refine .step heat hleads ?_
    rw [if_pos rfl]
    split
    · next hnone => exact endsAs_wildcardAt_of_none hleads.safe (near_of_tailAt htail) hnone
    · next bound keyword hbound =>
      have hshort : keyword.1.length < cs.length := (mark.andThen keyword).length_lt
      exact endsAs_wildcardAt_of_some hleads.safe (hstart.trans_lt hlt) (near_of_tailAt htail)
        hbound (fun c' => htype _ c' hshort) fun u rest => ⟨_, rfl, rfl⟩
  · next hnone =>
    obtain ⟨c₁, heat, hleads, htail⟩ := eat_of_head?_ne hc h (readSymbol?_eq_none_iff.1 hnone)
    refine .step heat hleads ?_
    rw [if_neg Bool.false_ne_true]
    -- the blanks are behind the cursor now, but `readName` passes over them once more
    refine .bind (endsAs_nameAt hleads.safe (near_of_skipBlanks htail)) ?_
    intro name after c₂ hleads₂ hnear
    dsimp only
    split
    · split
      · next hnone =>
        obtain ⟨c₃, heat₃, hleads₃, htail₃⟩ :=
          eat_of_head?_ne hleads₂.safe hnear (readSymbol?_eq_none_iff.1 hnone)
        refine .step heat₃ hleads₃ ?_
        rw [if_neg Bool.false_ne_true]
        exact .pure hleads₃.safe (near_of_skipBlanks htail₃)
      · next opening hopen =>
        obtain ⟨c₃, heat₃, hleads₃, hlt, htail₃⟩ :=
          eat_of_cons hleads₂.safe hnear (readSymbol?_eq_some hopen)
        have hbehind : start < c₃.offset := (hstart.trans (hleads.trans hleads₂).le).trans_lt hlt
        have hshort : opening.1.length < cs.length := opening.2.trans after.2
        refine .step heat₃ hleads₃ ?_
        rw [if_pos rfl]
        exact (hargs _ c₃ hshort hleads₃.safe hbehind (near_of_tailAt htail₃)).map
          fun args rest => ⟨_, rfl, rfl⟩
    · exact .pure hleads₂.safe hnear

/-- One step: arguments, from their first type and the arguments of shorter texts. -/
theorem endsAs_argumentsAt
    (htype : ∀ c', c'.Safe t → Near t c'.offset cs → EndsAs t c' t.typeAt (readType cs))
    (hargs : ∀ cs' c', cs'.length < cs.length → c'.Safe t → start < c'.offset →
      Near t c'.offset cs' → EndsAs t c' (t.argumentsAt start) (readArguments cs'))
    (hc : c.Safe t) (hstart : start < c.offset) (h : Near t c.offset cs) :
    EndsAs t c (t.argumentsAt start) (readArguments cs) := by
  rw [argumentsAt, readArguments]
  refine .bind (endsAs_partAt hc hstart htype h) ?_
  intro arg next c₁ hleads hnear
  dsimp only
  split
  · next comma hcomma =>
    obtain ⟨c₂, heat, hleads₂, hlt, htail⟩ :=
      eat_of_cons hleads.safe hnear (readSymbol?_eq_some hcomma)
    have hbehind : start < c₂.offset := hstart.trans (hleads.le.trans_lt hlt)
    refine .step heat hleads₂ ?_
    rw [if_pos rfl]
    exact (hargs _ c₂ (comma.2.trans next.2) hleads₂.safe hbehind (near_of_tailAt htail)).map
      fun args rest => ⟨_, rfl, rfl⟩
  · next closing hcomma hclose =>
    -- the search for a comma has passed over the blanks that `readSymbol?` passes over again
    obtain ⟨c₂, heat, hleads₂, htail⟩ :=
      eat_of_head?_ne hleads.safe hnear (readSymbol?_eq_none_iff.1 hcomma)
    obtain ⟨c₃, heat₃, hleads₃, -, htail₃⟩ :=
      eat_of_cons hleads₂.safe (near_of_skipBlanks htail) (readSymbol?_eq_some hclose)
    refine .step heat hleads₂ ?_
    rw [if_neg Bool.false_ne_true]
    refine .step heat₃ hleads₃ ?_
    rw [if_pos rfl]
    exact .pure hleads₃.safe (near_of_tailAt htail₃)
  · next hcomma hclose =>
    obtain ⟨c₂, heat, hleads₂, htail⟩ :=
      eat_of_head?_ne hleads.safe hnear (readSymbol?_eq_none_iff.1 hcomma)
    obtain ⟨c₃, heat₃, hleads₃, htail₃⟩ :=
      eat_of_head?_ne hleads₂.safe (near_of_skipBlanks htail) (readSymbol?_eq_none_iff.1 hclose)
    refine .step heat hleads₂ ?_
    rw [if_neg Bool.false_ne_true]
    refine .step heat₃ hleads₃ ?_
    rw [if_neg Bool.false_ne_true]
    exact .failNow hleads₃.safe htail₃

/-- **The reader at offsets ends as the reader of characters does**, where so many characters or fewer
are unread. -/
theorem endsAs_of_length_le (n : Nat) :
    (∀ cs c, cs.length ≤ n → c.Safe t → Near t c.offset cs →
      EndsAs t c t.typeAt (readType cs)) ∧
    (∀ cs c start, cs.length ≤ n → c.Safe t → start < c.offset → Near t c.offset cs →
      EndsAs t c (t.argumentsAt start) (readArguments cs)) := by
  induction n using Nat.strongRecOn with
  | ind n ih =>
    -- types come first, for the first argument of a class begins where the arguments do
    have htype : ∀ cs c, cs.length ≤ n → c.Safe t → Near t c.offset cs →
        EndsAs t c t.typeAt (readType cs) := by
      intro cs c hn hc h
      obtain ⟨c₁, hskip, hleads, htail⟩ := skipBlanks_eq hc h
      have hhead : EndsAs t c₁ (t.headAt c.offset) (readHead cs) :=
        endsAs_headAt
          (fun cs' c' hlt => (ih cs'.length (hlt.trans_le hn)).1 cs' c' le_rfl)
          (fun cs' c' hlt => (ih cs'.length (hlt.trans_le hn)).2 cs' c' _ le_rfl)
          hleads.safe hleads.le (near_of_skipBlanks htail)
      rw [typeAt, readType]
      refine .offsetNow (.step hskip hleads (hhead.bind ?_))
      intro head rest c₂ hleads₂ hnear
      rw [← bind_pure (t.bracketsAt head)]
      exact (endsAs_bracketsAt head hleads₂.safe hnear).map fun u rest => ⟨_, rfl, rfl⟩
    refine ⟨htype, fun cs c start hn hc hstart h => ?_⟩
    exact endsAs_argumentsAt (fun c' => htype cs c' hn)
      (fun cs' c' hlt => (ih cs'.length (hlt.trans_le hn)).2 cs' c' start le_rfl) hc hstart h

/-! ## Whole texts -/

theorem offsetOf_eq (h : TailAt t i cs) : offsetOf t cs = i := by
  rw [offsetOf, String.utf8ByteSize_ofList, ← h.add_eq, Nat.add_sub_cancel]

/-- The text ends at the cursor, or it goes on. -/
theorem offset_eq_iff (h : TailAt t i cs) : i = t.utf8ByteSize ↔ cs = [] := by
  rw [← h.add_eq, Nat.left_eq_add, String.utf8Len_eq_zero]

/-- What a reader that reads as `x` does with the whole text comes to. -/
theorem parseAt_of_endsAs (h : EndsAs t {} t.typeAt (readType t.toList)) :
    ∃ c : Cursor, c.Safe t ∧ t.parseAt {} = some ((parse t).mapError .fault, c) ∧
      ∀ e, parse t = .error e → e = ⟨t, e.fault, c.offset⟩ := by
  obtain ⟨c₁, hleads, hread⟩ := h
  unfold parseAt parse
  cases hx : readType t.toList with
  | error stop =>
    rw [hx] at hread
    obtain ⟨htype, htail⟩ := hread
    rw [bind_of_error htype]
    dsimp only
    rw [offsetOf_eq htail]
    refine ⟨c₁, hleads.safe, rfl, ?_⟩
    rintro e ⟨⟩
    rfl
  | ok result =>
    rw [hx] at hread
    obtain ⟨htype, hnear⟩ := hread
    obtain ⟨c₂, hskip, hleads₂, htail⟩ := skipBlanks_eq hleads.safe hnear
    rw [bind_of_ok htype, bind_of_ok hskip, offsetNow_bind]
    dsimp only
    cases hrest : skipBlanks result.2.1 with
    | nil =>
      rw [if_pos ((offset_eq_iff htail).2 hrest)]
      exact ⟨c₂, hleads₂.safe, rfl, nofun⟩
    | cons a as =>
      have hmore : skipBlanks result.2.1 ≠ [] := by rw [hrest]; exact List.cons_ne_nil a as
      rw [if_neg (mt (offset_eq_iff htail).1 hmore)]
      rw [hrest] at htail
      dsimp only
      rw [offsetOf_eq htail]
      refine ⟨c₂, hleads₂.safe, rfl, ?_⟩
      rintro e ⟨⟩
      rfl

/-- **Reading a text at offsets ends**, with what `parse` says of the text, and never because of a slice
that cannot be taken. The cursor goes from character to character and never back, the slices lie between
characters, and a part of a type begins behind the type. So there is a type, or else an error that
prints the text and the offset of the cursor, at which a character of the text begins or the text
ends. -/
theorem exists_safe_parseAt_eq (t : Source) :
    ∃ c : Cursor, c.Safe t ∧ t.parseAt {} = some ((parse t).mapError .fault, c) ∧
      ((∃ u, parse t = .ok u) ∨
        ∃ fault : Fault, parse t = .error ⟨t, fault, c.offset⟩ ∧
          c.offset ≤ t.utf8ByteSize ∧ IsBoundary t c.offset ∧
          Error.ofTypeRef ⟨t, fault, c.offset⟩ =
            .invalidTypeRef t (fault.message ++ " at offset " ++ toString c.offset)) := by
  have hstart : Near t ({} : Cursor).offset t.toList := near_of_tailAt (Text.tailAt_zero t)
  have htype := (endsAs_of_length_le t.toList.length).1 _ {} le_rfl (Cursor.safe_start t) hstart
  obtain ⟨c, hsafe, hparse, herror⟩ := parseAt_of_endsAs htype
  refine ⟨c, hsafe, hparse, ?_⟩
  cases hresult : parse t with
  | ok u => exact .inl ⟨u, rfl⟩
  | error e =>
    rw [herror e hresult]
    exact .inr ⟨e.fault, rfl, hsafe.isBoundary.le, hsafe.isBoundary, rfl⟩

end Wiring.TypeRef.Source
