import Wiring.Proofs.TypeRef.Reading

/-!
# Spellings from the left

How a spelling begins: with the token that comes after its leading blanks. And which runs of
characters are the names of classes: those that the readers take for names with arguments.
-/

namespace Wiring.TypeRef

open Text (isBlank skipBlanks skipBlanks_append skipBlanks_cons exists_skipBlanks)

variable {cs rest : List Char} {ts : List Token} {c : Char}

/-! ## Tokens at the start of a text -/

/-- The first token of a spelling is what comes after the leading blanks. -/
theorem Spaced.of_skipBlanks (token : Token) (h : skipBlanks cs = token.chars ++ rest)
    (hkeyword : ∀ bound, token = .keyword bound → rest.head?.any isBlank = true)
    (hrest : Spaced ts rest) : Spaced (token :: ts) cs := by
  obtain ⟨blanks, hblanks, hcs⟩ := exists_skipBlanks cs
  rw [hcs, h]
  exact .cons hblanks hkeyword hrest

theorem Spaced.symbol_of_skipBlanks (h : skipBlanks cs = c :: rest) (hrest : Spaced ts rest) :
    Spaced (.symbol c :: ts) cs :=
  .of_skipBlanks (.symbol c) h nofun hrest

theorem Spaced.uncons {token : Token} (h : Spaced (token :: ts) cs)
    (hhead : ∃ c, token.chars.head? = some c ∧ isBlank c = false) :
    ∃ rest, skipBlanks cs = token.chars ++ rest ∧
      (∀ bound, token = .keyword bound → rest.head?.any isBlank = true) ∧ Spaced ts rest := by
  cases h with
  | @cons blanks rest _ _ hblanks hkeyword hrest =>
    obtain ⟨c, hc, hblank⟩ := hhead
    obtain ⟨cs, hchars⟩ := List.head?_eq_some_iff.1 hc
    refine ⟨rest, ?_, hkeyword, hrest⟩
    rw [skipBlanks_append hblanks, hchars, List.cons_append, skipBlanks_cons hblank]

theorem Spaced.uncons_symbol (h : Spaced (.symbol c :: ts) cs) (hc : isBlank c = false) :
    ∃ rest, skipBlanks cs = c :: rest ∧ Spaced ts rest := by
  obtain ⟨rest, hcs, _, hrest⟩ := h.uncons ⟨c, rfl, hc⟩
  exact ⟨rest, hcs, hrest⟩

theorem Spaced.uncons_name {word : String} (h : Spaced (.name word :: ts) cs)
    (hne : word.toList ≠ []) (hchars : ∀ c ∈ word.toList, isNameChar c = true) :
    ∃ rest, skipBlanks cs = word.toList ++ rest ∧ Spaced ts rest := by
  obtain ⟨c, tail, hword⟩ := List.exists_cons_of_ne_nil hne
  have hblank : isBlank c = false := isBlank_of_isNameChar (hchars c (by simp [hword]))
  obtain ⟨rest, hcs, _, hrest⟩ := h.uncons ⟨c, by simp [Token.chars, hword], hblank⟩
  exact ⟨rest, hcs, hrest⟩

theorem Spaced.uncons_keyword {bound : Bound} (h : Spaced (.keyword bound :: ts) cs) :
    ∃ rest, ReadsBound cs bound rest ∧ Spaced ts rest := by
  have hhead : ∃ c, (Token.keyword bound).chars.head? = some c ∧ isBlank c = false := by
    cases bound
    · exact ⟨'e', rfl, rfl⟩
    · exact ⟨'s', rfl, rfl⟩
  obtain ⟨rest, hcs, hkeyword, hrest⟩ := h.uncons hhead
  exact ⟨rest, readsBound_iff.2 ⟨hcs, hkeyword bound rfl⟩, hrest⟩

/-- No bracket follows. -/
def NoBracket (cs : List Char) : Prop := (skipBlanks cs).head? ≠ some '['

/-! ## Names -/

theorem ofName_of_takesArguments {name : String} (h : takesArguments name = true)
    (args : List TypeRef) : ofName name args = declared name args := by
  simp only [takesArguments, Bool.and_eq_true, bne_iff_ne, Option.isNone_iff_eq_none] at h
  simp [ofName, h.1, h.2]

theorem keyword_of_ofKeyword? {name : String} {kind : Primitive}
    (h : Primitive.ofKeyword? name = some kind) : kind.keyword = name := by
  simpa using List.find?_some h

theorem isClassName_of_isName {name : String} (hname : isName name.toList = true)
    (hchars : ∀ c ∈ name.toList, isNameChar c = true) (htakes : takesArguments name = true) :
    IsClassName name := by
  simp only [isName, Bool.and_eq_true, bne_iff_ne] at hname
  simp only [takesArguments, Bool.and_eq_true, bne_iff_ne, Option.isNone_iff_eq_none,
    Primitive.ofKeyword?, List.find?_eq_none] at htakes
  refine ⟨by simpa using hname.1.1, hchars, hname.1.2, hname.2, htakes.1, ?_⟩
  intro kind hkind
  exact htakes.2 kind (by cases kind <;> decide) (by simp [hkind])

/-- The keywords of the type language are names that take no arguments. -/
theorem ofName_keyword (kind : Primitive) :
    takesArguments kind.keyword = false ∧ ofName kind.keyword [] = primitive kind ∧
      isName kind.keyword.toList = true ∧ ∀ c ∈ kind.keyword.toList, isNameChar c = true := by
  have hall : takesArguments kind.keyword = false ∧ ofName kind.keyword [] = primitive kind ∧
      isName kind.keyword.toList = true ∧ kind.keyword.toList.all isNameChar = true := by
    cases kind <;> decide
  rwa [List.all_eq_true] at hall

theorem IsClassName.takesArguments {name : String} (h : IsClassName name) :
    takesArguments name = true := by
  simp only [TypeRef.takesArguments, Bool.and_eq_true, bne_iff_ne, Option.isNone_iff_eq_none]
  refine ⟨h.not_void, ?_⟩
  cases hkind : Primitive.ofKeyword? name with
  | none => rfl
  | some kind => exact absurd (keyword_of_ofKeyword? hkind).symm (h.not_primitive kind)

theorem IsClassName.isName {name : String} (h : IsClassName name) : isName name.toList = true := by
  simp only [TypeRef.isName, Bool.and_eq_true, bne_iff_ne]
  exact ⟨⟨by simpa using h.ne_nil, h.head⟩, h.last⟩

theorem isClassName_iff {name : String} :
    IsClassName name ↔
      TypeRef.isName name.toList = true ∧ name.toList.all isNameChar = true ∧
        TypeRef.takesArguments name = true := by
  rw [List.all_eq_true]
  constructor
  · intro h
    exact ⟨h.isName, h.chars, h.takesArguments⟩
  · rintro ⟨hname, hchars, htakes⟩
    exact isClassName_of_isName hname hchars htakes

instance (name : String) : Decidable (IsClassName name) := decidable_of_iff _ isClassName_iff.symm

end Wiring.TypeRef
