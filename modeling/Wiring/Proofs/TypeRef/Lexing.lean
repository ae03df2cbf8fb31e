import Wiring.Proofs.TypeRef.Parse

/-!
# The tokens of a text

A text is cut into tokens without regard to what they mean: whole runs of name characters, and
every other character but the blanks. The canonical text of a reference has the tokens of the
reference, so what parses to a reference is told by its canonical text alone: the same tokens, with
blanks in other places.
-/

namespace Wiring.TypeRef

open Text (isBlank)

variable {rest : List Char} {c : Char} {marked : Bool} {t : TypeRef}

/-- What a run of name characters is: behind the mark of a wildcard the keyword of a bound, a name
everywhere else. -/
def wordToken (marked : Bool) (word : List Char) : Token :=
  if marked && word == Bound.upper.keyword then .keyword .upper
  else if marked && word == Bound.lower.keyword then .keyword .lower
  else .name (String.ofList word)

/-- The tokens of a text; `marked` says whether the mark of a wildcard comes before it. -/
def lex (marked : Bool) : List Char → List Token
  | [] => []
  | c :: cs =>
    if isBlank c then lex marked cs
    else if isNameChar c then
      wordToken marked (c :: cs.takeWhile isNameChar) :: lex false (cs.dropWhile isNameChar)
    else .symbol c :: lex (c == '?') cs
termination_by cs => cs.length
decreasing_by
  · exact Nat.lt_succ_self _
  · exact Nat.lt_succ_of_le (List.dropWhile_suffix isNameChar).length_le
  · exact Nat.lt_succ_self _

theorem lex_nil : lex marked [] = [] := by
  rw [lex.eq_def]

theorem lex_blank (hc : isBlank c = true) (cs : List Char) :
    lex marked (c :: cs) = lex marked cs := by
  rw [lex.eq_def]
  exact if_pos hc

theorem lex_symbol (hc : c ∈ [',', '<', '>', '[', ']']) (cs : List Char) :
    lex marked (c :: cs) = .symbol c :: lex false cs := by
  have hsymbols : [',', '<', '>', '[', ']'].all
      (fun c => !isBlank c && !isNameChar c && c != '?') = true := by decide
  have hsymbol := List.all_eq_true.1 hsymbols c hc
  simp only [Bool.and_eq_true, Bool.not_eq_true', bne_iff_ne] at hsymbol
  rw [lex.eq_def]
  dsimp only
  rw [hsymbol.1.1, hsymbol.1.2, beq_false_of_ne hsymbol.2]
  rfl

theorem lex_mark (cs : List Char) : lex marked ('?' :: cs) = .symbol '?' :: lex true cs := by
  rw [lex.eq_def]
  rfl

/-- A run of name characters is one token. -/
theorem lex_word {word : List Char} (hne : word ≠ []) (hword : ∀ c ∈ word, isNameChar c = true)
    (hrest : ∀ c, rest.head? = some c → isNameChar c = false) :
    lex marked (word ++ rest) = wordToken marked word :: lex false rest := by
  obtain ⟨c, cs, rfl⟩ := List.exists_cons_of_ne_nil hne
  rw [List.forall_mem_cons] at hword
  have hstop : rest.takeWhile isNameChar = [] ∧ rest.dropWhile isNameChar = rest := by
    cases rest with
    | nil => exact ⟨rfl, rfl⟩
    | cons d rest => simp [hrest d rfl]
  rw [List.cons_append, lex.eq_def]
  dsimp only
  rw [isBlank_of_isNameChar hword.1, hword.1, List.takeWhile_append_of_pos hword.2,
    List.dropWhile_append_of_pos hword.2, hstop.1, hstop.2, List.append_nil]
  rfl

/-! ## Canonical texts -/

/-- What may stand directly behind a reference in a canonical text. -/
def Delimits (rest : List Char) : Prop :=
  ∀ c, rest.head? = some c → c ∈ [',', '<', '>', '[', ']']

theorem delimits_cons {c : Char} (hc : c ∈ [',', '<', '>', '[', ']']) (cs : List Char) :
    Delimits (c :: cs) := by
  intro d hd
  cases hd
  exact hc

theorem Delimits.not_isNameChar (h : Delimits rest) (c : Char) (hc : rest.head? = some c) :
    isNameChar c = false := by
  have hsymbols : [',', '<', '>', '[', ']'].all (isNameChar · == false) = true := by decide
  exact beq_iff_eq.1 (List.all_eq_true.1 hsymbols c (h c hc))

/-- The mark of a wildcard only matters to a word. -/
theorem Delimits.lex_eq (h : Delimits rest) : lex marked rest = lex false rest := by
  cases rest with
  | nil => rw [lex_nil, lex_nil]
  | cons c cs => rw [lex_symbol (h c rfl), lex_symbol (h c rfl)]

theorem lex_name (name : String) (hname : isName name.toList = true)
    (hchars : ∀ c ∈ name.toList, isNameChar c = true) (h : Delimits rest) :
    lex false (name.toList ++ rest) = .name name :: lex false rest := by
  rw [lex_word (isName_ne_nil hname) hchars h.not_isNameChar]
  simp [wordToken]

/-- The keyword of a bound behind the mark of a wildcard. -/
theorem lex_keyword (bound : Bound) (cs : List Char) :
    lex false ('?' :: ' ' :: (bound.keyword ++ ' ' :: cs)) =
      .symbol '?' :: .keyword bound :: lex false cs := by
  have hword : bound.keyword ≠ [] ∧ bound.keyword.all isNameChar = true := by
    cases bound <;> decide
  have htoken : wordToken true bound.keyword = .keyword bound := by
    cases bound <;> rfl
  obtain ⟨hne, hchars⟩ := hword
  rw [List.all_eq_true] at hchars
  have hnext : ∀ c, (' ' :: cs).head? = some c → isNameChar c = false := by
    intro c hc
    cases hc
    decide
  rw [lex_mark, lex_blank (by decide), lex_word hne hchars hnext, htoken, lex_blank (by decide)]

/-- What comes behind an argument. -/
theorem delimits_textTail (args : List TypeRef) (rest : List Char) :
    Delimits ((textTail args).toList ++ '>' :: rest) := by
  cases args with
  | nil => exact delimits_cons (by decide) rest
  | cons arg args =>
    simp only [textTail, String.toList_append]
    exact delimits_cons (by decide) _

mutual

/-- **The canonical text has the tokens of its reference.** -/
theorem lex_text : (t : TypeRef) → t.WellFormed → ∀ {rest}, Delimits rest →
    lex false (t.text.toList ++ rest) = t.tokens ++ lex false rest
  | void, _, _, h => lex_name "void" rfl (List.all_eq_true.1 (by decide)) h
  | primitive kind, _, _, h => by
    obtain ⟨_, _, hname, hchars⟩ := ofName_keyword kind
    exact lex_name _ hname hchars h
  | declared name [], hw, _, h => lex_name name hw.1.isName hw.1.chars h
  | declared name (arg :: args), hw, rest, _ => by
    obtain ⟨hclass, harg, hargs⟩ := hw
    have hname := lex_name name hclass.isName hclass.chars <|
      delimits_cons (c := '<') (by decide) <|
        arg.text.toList ++ ((textTail args).toList ++ '>' :: rest)
    rw [lex_symbol (by decide), lex_text arg harg (delimits_textTail args rest),
      lex_textTail args hargs] at hname
    simpa [text, tokens, String.toList_append] using hname
  | wildcard, _, rest, h => by
    have hmark : lex false ('?' :: rest) = .symbol '?' :: lex true rest := lex_mark rest
    rwa [h.lex_eq] at hmark
  | wildcardExtends bound, hw, rest, h => by
    have hkeyword := lex_keyword .upper (bound.text.toList ++ rest)
    rw [lex_text bound hw h] at hkeyword
    rw [toList_text_wildcardExtends, List.cons_append, List.cons_append, List.append_assoc]
    exact hkeyword
  | wildcardSuper bound, hw, rest, h => by
    have hkeyword := lex_keyword .lower (bound.text.toList ++ rest)
    rw [lex_text bound hw h] at hkeyword
    rw [toList_text_wildcardSuper, List.cons_append, List.cons_append, List.append_assoc]
    exact hkeyword
  | array component, hw, rest, _ => by
    have hcomponent := lex_text component hw.1 (delimits_cons (c := '[') (by decide) (']' :: rest))
    rw [lex_symbol (by decide), lex_symbol (by decide)] at hcomponent
    simpa [text, tokens, String.toList_append] using hcomponent

theorem lex_textTail : (args : List TypeRef) → AllWellFormed args → ∀ {rest},
    lex false ((textTail args).toList ++ '>' :: rest) = tokensTail args ++ lex false rest
  | [], _, rest => lex_symbol (by decide) rest
  | arg :: args, hw, rest => by
    have htext : (textTail (arg :: args)).toList ++ '>' :: rest =
        ',' :: ' ' :: (arg.text.toList ++ ((textTail args).toList ++ '>' :: rest)) := by
      simp [textTail, String.toList_append]
    rw [htext, lex_symbol (by decide), lex_blank (by decide),
      lex_text arg hw.1 (delimits_textTail args rest), lex_textTail args hw.2]
    simp [tokensTail]

end

/-- The tokens of a canonical text. -/
theorem lex_toList_text (h : t.WellFormed) : lex false t.text.toList = t.tokens := by
  have htext : lex false (t.text.toList ++ []) = t.tokens ++ lex false [] := lex_text t h nofun
  rwa [List.append_nil, lex_nil, List.append_nil] at htext

/-- **A text parses to a reference exactly if the reference is well formed and the text has the
tokens of its canonical text**, with any blanks around them. So the canonical text parses back, and
no two well-formed references share one. -/
theorem parse_iff_canonical_tokens :
    (∀ input t, parse input = .ok t ↔
      t.WellFormed ∧ Spaced (lex false t.text.toList) input.toList) ∧
    (∀ t : TypeRef, t.WellFormed → parse t.text = .ok t) ∧
    ∀ s t : TypeRef, s.WellFormed → t.WellFormed → s.text = t.text → s = t := by
  refine ⟨fun input t => ?_, fun t h => h.parse_text, fun s t hs ht => ?_⟩
  · rw [parse_eq_ok_iff]
    refine and_congr_right fun h => ?_
    rw [lex_toList_text h]
  · exact eq_of_text_eq (isParsed_iff.2 hs) (isParsed_iff.2 ht)

/-- `Map<a.K, ? extends int[]>`. -/
def exampleReference : TypeRef :=
  .declared "Map" [.declared "a.K" [], .wildcardExtends (.array (.primitive .int))]

theorem wellFormed_exampleReference : exampleReference.WellFormed :=
  ⟨by decide, ⟨by decide, trivial⟩, ⟨trivial, rfl⟩, trivial⟩

theorem parse_canonical_tokens_example :
    exampleReference.WellFormed ∧
      parse "Map<a.K, ? extends int[]>" = .ok exampleReference ∧
      parse " Map<a.K ,?extends\tint [ ]>" = .ok exampleReference ∧
      ∀ t, t.WellFormed → t.text = "Map<a.K, ? extends int[]>" → t = exampleReference := by
  have hwell := wellFormed_exampleReference
  have htext : exampleReference.text = "Map<a.K, ? extends int[]>" := by decide
  refine ⟨hwell, htext ▸ parse_iff_canonical_tokens.2.1 _ hwell, ?_, fun t ht h => ?_⟩
  · refine (parse_iff_canonical_tokens.1 _ _).2 ⟨hwell, ?_⟩
    rw [lex_toList_text hwell]
    exact .blank rfl <| .name "Map" <| .symbol '<' <| .name "a.K" <| .blank rfl <| .symbol ',' <|
      .symbol '?' <| .keyword .upper rfl <| .blank rfl <| .name "int" <| .blank rfl <|
      .symbol '[' <| .blank rfl <| .symbol ']' <| .symbol '>' <| .nil (by simp)
  · exact parse_iff_canonical_tokens.2.2 _ _ ht hwell (h.trans htext.symm)

end Wiring.TypeRef
