import Wiring.TypeRef.Parser

/-!
# The tokens of a type reference

A type reference is written as a sequence of tokens: names, the keywords of a wildcard's bound, and
single symbols. Blanks may stand around every token, and one must stand behind a keyword. The
canonical text is one such spelling.
-/

namespace Wiring.Text

/-- The code points of the blank characters. -/
def blankCodes : List Nat :=
  [9, 10, 11, 12, 13, 32, 0x85, 0xA0, 0x1680, 0x2000, 0x2001, 0x2002, 0x2003, 0x2004, 0x2005,
   0x2006, 0x2007, 0x2008, 0x2009, 0x200A, 0x2028, 0x2029, 0x202F, 0x205F, 0x3000]

theorem toNat_mem_blankCodes {c : Char} (h : isBlank c = true) : c.toNat ∈ blankCodes := by
  simp only [isBlank, Bool.or_eq_true, Bool.and_eq_true, decide_eq_true_eq, beq_iff_eq] at h
  simp only [blankCodes, List.mem_cons, List.not_mem_nil, or_false]
  omega

/-- No character is both blank and alphanumeric. -/
theorem isAlphanumeric_of_isBlank {c : Char} (h : isBlank c = true) : isAlphanumeric c = false := by
  have hall : ∀ n ∈ blankCodes, isAlphanumeric (Char.ofNat n) = false := by decide +kernel
  rw [← Char.ofNat_toNat c]
  exact hall _ (toNat_mem_blankCodes h)

theorem skipBlanks_cons {c : Char} (h : isBlank c = false) (cs : List Char) :
    skipBlanks (c :: cs) = c :: cs := by
  simp [skipBlanks, h]

theorem skipBlanks_append {blanks : List Char} (h : ∀ c ∈ blanks, isBlank c = true)
    (cs : List Char) : skipBlanks (blanks ++ cs) = skipBlanks cs := by
  induction blanks with
  | nil => rfl
  | cons b bs ih =>
    rw [List.cons_append, skipBlanks, List.dropWhile_cons_of_pos (h b List.mem_cons_self)]
    exact ih fun c hc => h c (List.mem_cons_of_mem _ hc)

/-- A text is its leading blanks and what is left of it after them. -/
theorem exists_skipBlanks (cs : List Char) :
    ∃ blanks, (∀ c ∈ blanks, isBlank c = true) ∧ cs = blanks ++ skipBlanks cs :=
  ⟨cs.takeWhile isBlank, List.all_eq_true.1 List.all_takeWhile,
    List.takeWhile_append_dropWhile.symm⟩

end Wiring.Text

namespace Wiring.TypeRef

open Text (isBlank skipBlanks)

theorem isNameChar_of_isBlank {c : Char} (h : isBlank c = true) : isNameChar c = false := by
  have hne : ∀ d ∈ ['_', '$', '.'], c ≠ d := by
    rintro d hd rfl
    have hmarks : ['_', '$', '.'].all (isBlank · == false) = true := by decide
    have hmark := List.all_eq_true.1 hmarks c hd
    rw [h] at hmark
    cases hmark
  simp only [isNameChar, Text.isAlphanumeric_of_isBlank h, Bool.false_or, Bool.or_eq_false_iff,
    beq_eq_false_iff_ne]
  exact ⟨⟨hne '_' (by simp), hne '$' (by simp)⟩, hne '.' (by simp)⟩

theorem isBlank_of_isNameChar {c : Char} (h : isNameChar c = true) : isBlank c = false := by
  cases hc : isBlank c with
  | false => rfl
  | true =>
    rw [isNameChar_of_isBlank hc] at h
    cases h

/-! ## Well-formed references -/

/-- The name of a class or interface: a run of name characters without a dot at either end that is
no keyword of the type language. -/
structure IsClassName (name : String) : Prop where
  ne_nil : name.toList ≠ []
  chars : ∀ c ∈ name.toList, isNameChar c = true
  head : name.toList.head? ≠ some '.'
  last : name.toList.getLast? ≠ some '.'
  not_void : name ≠ "void"
  not_primitive : ∀ kind : Primitive, name ≠ kind.keyword

/-- Whether brackets after the reference belong to it and not to the bound of a wildcard. -/
def takesBrackets : TypeRef → Bool
  | wildcardExtends _ | wildcardSuper _ => false
  | array component => component.takesBrackets
  | _ => true

mutual

/-- A reference that has a text of its own: the names of its classes are names, and no array is one
of bounded wildcards. -/
def WellFormed : TypeRef → Prop
  | declared name args => IsClassName name ∧ AllWellFormed args
  | wildcardExtends bound | wildcardSuper bound => bound.WellFormed
  | array component => component.WellFormed ∧ component.takesBrackets = true
  | void | primitive _ | wildcard => True

def AllWellFormed : List TypeRef → Prop
  | [] => True
  | arg :: args => arg.WellFormed ∧ AllWellFormed args

end

/-! ## Tokens -/

inductive Token
  | name (word : String)
  | keyword (bound : Bound)
  | symbol (c : Char)

def Token.chars : Token → List Char
  | name word => word.toList
  | keyword bound => bound.keyword
  | symbol c => [c]

mutual

/-- The tokens of a reference, in the order of its text. -/
def tokens : TypeRef → List Token
  | void => [.name "void"]
  | primitive kind => [.name kind.keyword]
  | declared name [] => [.name name]
  | declared name (arg :: args) => .name name :: .symbol '<' :: (arg.tokens ++ tokensTail args)
  | wildcard => [.symbol '?']
  | wildcardExtends bound => .symbol '?' :: .keyword .upper :: bound.tokens
  | wildcardSuper bound => .symbol '?' :: .keyword .lower :: bound.tokens
  | array component => component.tokens ++ [.symbol '[', .symbol ']']

/-- The tokens after the first argument of a list of arguments. -/
def tokensTail : List TypeRef → List Token
  | [] => [.symbol '>']
  | arg :: args => .symbol ',' :: (arg.tokens ++ tokensTail args)

end

/-- Whether some characters are a sequence of tokens with blanks before, between and after them. A
keyword has a blank behind it. -/
inductive Spaced : List Token → List Char → Prop
  | nil {blanks : List Char} (h : ∀ c ∈ blanks, isBlank c = true) : Spaced [] blanks
  | cons {blanks rest : List Char} {t : Token} {ts : List Token}
      (h : ∀ c ∈ blanks, isBlank c = true)
      (hkeyword : ∀ bound, t = .keyword bound → rest.head?.any isBlank = true)
      (hrest : Spaced ts rest) : Spaced (t :: ts) (blanks ++ (t.chars ++ rest))

namespace Spaced

variable {ts : List Token} {cs rest : List Char}

/-- A symbol directly before other tokens. -/
theorem symbol (c : Char) (h : Spaced ts rest) : Spaced (.symbol c :: ts) (c :: rest) :=
  @cons [] rest (.symbol c) ts (by simp) nofun h

/-- A name directly before other tokens. -/
theorem name (word : String) (h : Spaced ts rest) :
    Spaced (.name word :: ts) (word.toList ++ rest) :=
  @cons [] rest (.name word) ts (by simp) nofun h

/-- A keyword and a blank before other tokens. -/
theorem keyword (bound : Bound) {c : Char} (hc : isBlank c = true) (h : Spaced ts (c :: rest)) :
    Spaced (.keyword bound :: ts) (bound.keyword ++ c :: rest) :=
  @cons [] (c :: rest) (.keyword bound) ts (by simp) (by simp [hc]) h

theorem blank {c : Char} (hc : isBlank c = true) (h : Spaced ts cs) : Spaced ts (c :: cs) := by
  cases h with
  | nil h => exact .nil (by simpa [hc] using h)
  | cons h hkeyword hrest =>
    rw [← List.cons_append]
    exact .cons (by simpa [hc] using h) hkeyword hrest

end Spaced

/-! ## The canonical text -/

theorem toList_text_wildcardExtends (bound : TypeRef) :
    (wildcardExtends bound).text.toList =
      '?' :: ' ' :: (Bound.upper.keyword ++ ' ' :: bound.text.toList) := by
  rw [text, String.toList_append]
  rfl

theorem toList_text_wildcardSuper (bound : TypeRef) :
    (wildcardSuper bound).text.toList =
      '?' :: ' ' :: (Bound.lower.keyword ++ ' ' :: bound.text.toList) := by
  rw [text, String.toList_append]
  rfl

mutual

/-- **The canonical text spells the tokens.** -/
theorem spaced_text {ts : List Token} {rest : List Char} (h : Spaced ts rest) :
    (t : TypeRef) → Spaced (t.tokens ++ ts) (t.text.toList ++ rest)
  | void => .name "void" h
  | primitive kind => .name kind.keyword h
  | declared word [] => .name word h
  | declared word (arg :: args) => by
    have htail := spaced_text (spaced_textTail h args) arg
    have := Spaced.name word (.symbol '<' htail)
    simpa [tokens, text, String.toList_append, List.append_assoc] using this
  | wildcard => .symbol '?' h
  | wildcardExtends bound => by
    have hbound := Spaced.keyword .upper (c := ' ') rfl ((spaced_text h bound).blank rfl)
    rw [toList_text_wildcardExtends, List.cons_append, List.cons_append, List.append_assoc]
    exact (hbound.blank rfl).symbol '?'
  | wildcardSuper bound => by
    have hbound := Spaced.keyword .lower (c := ' ') rfl ((spaced_text h bound).blank rfl)
    rw [toList_text_wildcardSuper, List.cons_append, List.cons_append, List.append_assoc]
    exact (hbound.blank rfl).symbol '?'
  | array component => by
    have := spaced_text ((h.symbol ']').symbol '[') component
    simpa [tokens, text, String.toList_append] using this

theorem spaced_textTail {ts : List Token} {rest : List Char} (h : Spaced ts rest) :
    (args : List TypeRef) →
      Spaced (tokensTail args ++ ts) ((textTail args).toList ++ '>' :: rest)
  | [] => .symbol '>' h
  | arg :: args => by
    have harg := spaced_text (spaced_textTail h args) arg
    have := (harg.blank (c := ' ') rfl).symbol ','
    simpa [tokensTail, textTail, String.toList_append] using this

end

end Wiring.TypeRef
