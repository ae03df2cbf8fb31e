import Mathlib.Data.List.TakeWhile
import Wiring.Proofs.Text.Cut
import Wiring.Provider.MethodName

/-!
# What the names of provider methods are made of

Behind `provide` and the tag of its domain, a method name has ASCII letters and digits only: what a
parameter name, a type or a default has besides is dropped, or digested. So the method name is an
identifier if the tag may stand in one. A parameter name counts for its runs of letters and digits,
and whatever stands between these only parts them.
-/

namespace Wiring.MethodName

variable {cs gap : List Char} {runs : List (List Char)} {s t : String}

/-! ## Letters and digits -/

theorem isAlphanum_iff (c : Char) :
    c.isAlphanum = true ↔
      65 ≤ c.val ∧ c.val ≤ 90 ∨ 97 ≤ c.val ∧ c.val ≤ 122 ∨ 48 ≤ c.val ∧ c.val ≤ 57 := by
  have htests : c.isAlphanum =
      (decide (65 ≤ c.val ∧ c.val ≤ 90) || decide (97 ≤ c.val) && decide (c.val ≤ 122) ||
        decide (48 ≤ c.val) && decide (c.val ≤ 57)) := rfl
  rw [htests]
  simp [or_assoc]

theorem val_toUpper (c : Char) :
    c.toUpper.val = if 97 ≤ c.val ∧ c.val ≤ 122 then c.val - 32 else c.val := by
  unfold Char.toUpper
  split
  · next h =>
    refine Eq.trans ?_ (if_pos h).symm
    rw [UInt32.sub_eq_add_neg c.val]
    rfl
  · next h => exact (if_neg h).symm

theorem val_toLower (c : Char) :
    c.toLower.val = if 65 ≤ c.val ∧ c.val ≤ 90 then c.val + 32 else c.val := by
  unfold Char.toLower
  split
  · next h => exact (if_pos h).symm
  · next h => exact (if_neg h).symm

theorem toUpper_toLower (c : Char) : c.toLower.toUpper = c.toUpper := by
  apply Char.ext
  simp only [val_toUpper, val_toLower]
  grind

theorem isAlphanum_toUpper {c : Char} (h : c.isAlphanum = true) : c.toUpper.isAlphanum = true := by
  rw [isAlphanum_iff] at h ⊢
  rw [val_toUpper]
  grind

theorem isAlphanum_toLower {c : Char} (h : c.isAlphanum = true) : c.toLower.isAlphanum = true := by
  rw [isAlphanum_iff] at h ⊢
  rw [val_toLower]
  grind

/-- All characters are letters and digits. -/
def IsPlain (s : String) : Prop := ∀ c ∈ s.toList, c.isAlphanum = true

instance (s : String) : Decidable (IsPlain s) :=
  decidable_of_iff (s.toList.all Char.isAlphanum = true) List.all_eq_true

theorem IsPlain.append (hs : IsPlain s) (ht : IsPlain t) : IsPlain (s ++ t) := by
  intro c hc
  rw [String.toList_append, List.mem_append] at hc
  exact hc.elim (hs c) (ht c)

theorem isPlain_ofList (h : ∀ c ∈ cs, c.isAlphanum = true) : IsPlain (String.ofList cs) := by
  rwa [IsPlain, String.toList_ofList]

/-! ## Words -/

/-- The maximal runs of letters and digits, in order. -/
inductive HasRuns : List Char → List (List Char) → Prop
  | none {gap : List Char} (hgap : ∀ c ∈ gap, c.isAlphanum = false) : HasRuns gap []
  | run {gap run rest : List Char} {runs : List (List Char)}
    (hgap : ∀ c ∈ gap, c.isAlphanum = false) (hne : run ≠ [])
    (hrun : ∀ c ∈ run, c.isAlphanum = true) (hends : ∀ c ∈ rest.head?, c.isAlphanum = false)
    (hrest : HasRuns rest runs) : HasRuns (gap ++ (run ++ rest)) (run :: runs)

/-- What parts runs makes no difference in front of them. -/
theorem HasRuns.after_gap (h : HasRuns cs runs) (hgap : ∀ c ∈ gap, c.isAlphanum = false) :
    HasRuns (gap ++ cs) runs := by
  have hboth {gap' : List Char} (hgap' : ∀ c ∈ gap', c.isAlphanum = false) :
      ∀ c ∈ gap ++ gap', c.isAlphanum = false := by
    intro c hc
    exact (List.mem_append.1 hc).elim (hgap c) (hgap' c)
  cases h with
  | none hgap' => exact .none (hboth hgap')
  | run hgap' hne hrun hends hrest =>
    rw [← List.append_assoc]
    exact .run (hboth hgap') hne hrun hends hrest

theorem HasRuns.append {cs' : List Char} {runs' : List (List Char)} {c : Char}
    (h : HasRuns cs runs) (hc : c.isAlphanum = false) (h' : HasRuns cs' runs') :
    HasRuns (cs ++ c :: cs') (runs ++ runs') := by
  induction h with
  | none hgap =>
    rw [List.append_cons]
    refine h'.after_gap fun d hd => ?_
    rcases List.mem_append.1 hd with hd | hd
    · exact hgap d hd
    · rwa [List.mem_singleton.1 hd]
  | @run gap run rest runs hgap hne hrun hends _ ih =>
    have hends' : ∀ d ∈ (rest ++ c :: cs').head?, d.isAlphanum = false := by
      cases rest with
      | nil => simpa using hc
      | cons d rest => exact hends
    rw [List.append_assoc, List.append_assoc]
    exact .run hgap hne hrun hends' ih

theorem words_of_gap (h : cs.dropWhile (!·.isAlphanum) = []) : words cs = [] := by
  rw [words]
  split
  · rfl
  · next heq =>
    rw [h] at heq
    cases heq

theorem words_of_dropWhile {c : Char} {rest : List Char}
    (h : cs.dropWhile (!·.isAlphanum) = c :: rest) :
    words cs = (c :: rest.takeWhile (·.isAlphanum)) :: words (rest.dropWhile (·.isAlphanum)) := by
  rw [words]
  split
  · next heq =>
    rw [h] at heq
    cases heq
  · next heq =>
    rw [h] at heq
    cases heq
    rfl

/-- No other runs are those of the name. -/
theorem HasRuns.words_eq (h : HasRuns cs runs) : words cs = runs := by
  induction h with
  | none hgap => exact words_of_gap (List.dropWhile_eq_nil_iff.2 (by simpa using hgap))
  | @run gap run rest runs hgap hne hrun hends _ ih =>
    obtain ⟨c, run, rfl⟩ := List.exists_cons_of_ne_nil hne
    obtain ⟨hc, hrun⟩ := List.forall_mem_cons.1 hrun
    have hdrop : (gap ++ (c :: run ++ rest)).dropWhile (!·.isAlphanum) = c :: (run ++ rest) := by
      rw [List.dropWhile_append_of_pos (by simpa using hgap), List.cons_append,
        List.dropWhile_cons_of_neg (by simpa using hc)]
    have hrest : rest.takeWhile (·.isAlphanum) = [] ∧ rest.dropWhile (·.isAlphanum) = rest := by
      cases rest with
      | nil => exact ⟨rfl, rfl⟩
      | cons d rest =>
        have hd : d.isAlphanum = false := hends d rfl
        simp [hd]
    rw [words_of_dropWhile hdrop, List.takeWhile_append_of_pos hrun,
      List.dropWhile_append_of_pos hrun, hrest.1, hrest.2, List.append_nil, ih]

/-- **The words of a name** are its maximal runs of letters and digits. -/
theorem hasRuns_words (cs : List Char) : HasRuns cs (words cs) := by
  induction hn : cs.length using Nat.strongRecOn generalizing cs with
  | ind n ih =>
    have hgap : ∀ c ∈ cs.takeWhile (!·.isAlphanum), c.isAlphanum = false := fun c hc => by
      simpa using List.mem_takeWhile_imp hc
    have hsplit := List.takeWhile_append_dropWhile (p := (!·.isAlphanum)) (l := cs)
    cases hdrop : cs.dropWhile (!·.isAlphanum) with
    | nil =>
      rw [hdrop, List.append_nil] at hsplit
      rw [words_of_gap hdrop]
      exact .none (hsplit ▸ hgap)
    | cons c rest =>
      have hc : c.isAlphanum = true := by
        have hhead := List.head?_dropWhile_not (!·.isAlphanum) cs
        simpa [hdrop] using hhead
      have hrun : ∀ d ∈ c :: rest.takeWhile (·.isAlphanum), d.isAlphanum = true :=
        List.forall_mem_cons.2 ⟨hc, fun d hd => List.mem_takeWhile_imp hd⟩
      have hends : ∀ d ∈ (rest.dropWhile (·.isAlphanum)).head?, d.isAlphanum = false := by
        intro d hd
        have hhead := List.head?_dropWhile_not (·.isAlphanum) rest
        rw [Option.mem_def.1 hd] at hhead
        simpa using hhead
      have hlength : (rest.dropWhile (·.isAlphanum)).length < n := by
        have := (List.dropWhile_suffix (·.isAlphanum) (l := rest)).length_le
        have := congrArg List.length hsplit
        rw [hdrop] at this
        simp at this
        omega
      rw [words_of_dropWhile hdrop]
      have hall := HasRuns.run hgap (List.cons_ne_nil _ _) hrun hends (ih _ hlength _ rfl)
      rwa [List.cons_append, List.takeWhile_append_dropWhile, ← hdrop, hsplit] at hall

theorem HasRuns.isAlphanum (h : HasRuns cs runs) :
    ∀ run ∈ runs, ∀ c ∈ run, c.isAlphanum = true := by
  induction h with
  | none _ => simp
  | run _ _ hrun _ _ ih => exact List.forall_mem_cons.2 ⟨hrun, ih⟩

/-! ## Camel case -/

theorem isAlphanum_camelWord {word : List Char} (h : ∀ c ∈ word, c.isAlphanum = true) :
    ∀ c ∈ camelWord word, c.isAlphanum = true := by
  cases word with
  | nil => simp [camelWord]
  | cons c word =>
    obtain ⟨hc, hword⟩ := List.forall_mem_cons.1 h
    refine List.forall_mem_cons.2 ⟨isAlphanum_toUpper hc, fun d hd => ?_⟩
    obtain ⟨e, he, rfl⟩ := List.mem_map.1 hd
    exact isAlphanum_toLower (hword e he)

theorem isPlain_upperCamel (name : String) : IsPlain (upperCamel name) := by
  refine isPlain_ofList fun c hc => ?_
  obtain ⟨word, hword, hc⟩ := List.mem_flatMap.1 hc
  exact isAlphanum_camelWord ((hasRuns_words name.toList).isAlphanum word hword) c hc

/-- Camel case does not keep the case that a word was written in. -/
theorem camelWord_eq_of_map_toLower_eq {word word' : List Char}
    (h : word.map Char.toLower = word'.map Char.toLower) : camelWord word = camelWord word' := by
  cases word with
  | nil =>
    rw [List.map_nil, eq_comm, List.map_eq_nil_iff] at h
    rw [h]
  | cons c word =>
    cases word' with
    | nil => cases h
    | cons c' word' =>
      obtain ⟨hc, hword⟩ := List.cons.inj h
      rw [camelWord, camelWord, ← toUpper_toLower c, hc, toUpper_toLower, hword]

theorem upperCamel_eq_of_words {name name' : String}
    (h : (words name.toList).map (·.map Char.toLower) =
      (words name'.toList).map (·.map Char.toLower)) : upperCamel name = upperCamel name' := by
  have hwords : (words name.toList).map camelWord = (words name'.toList).map camelWord :=
    map_eq_map_of_imp (fun _ _ _ _ => camelWord_eq_of_map_toLower_eq) h
  rw [upperCamel, upperCamel, List.flatMap_def, List.flatMap_def, hwords]

/-- A character that is neither letter nor digit parts a name. -/
theorem upperCamel_append (a b : String) {c : Char} (hc : c.isAlphanum = false) :
    upperCamel (a ++ String.singleton c ++ b) = upperCamel a ++ upperCamel b := by
  have hruns := (hasRuns_words a.toList).append hc (hasRuns_words b.toList)
  have hchars : (a ++ String.singleton c ++ b).toList = a.toList ++ c :: b.toList := by simp
  rw [upperCamel, hchars, hruns.words_eq, List.flatMap_append, String.ofList_append]
  rfl

/-! ## Types -/

theorem isPlain_capitalize (word : String) : IsPlain (capitalize word) := by
  have hkept : ∀ c ∈ word.toList.filter Char.isAlphanum, c.isAlphanum = true :=
    fun c hc => (List.mem_filter.1 hc).2
  unfold capitalize
  split
  · decide
  · next c cs heq =>
    rw [heq, List.forall_mem_cons] at hkept
    exact isPlain_ofList (List.forall_mem_cons.2 ⟨isAlphanum_toUpper hkept.1, hkept.2⟩)

mutual

theorem isPlain_typeFragment : (t : TypeRef) → IsPlain (typeFragment t)
  | .void => by rw [typeFragment]; decide
  | .primitive kind => isPlain_capitalize kind.keyword
  | .declared name [] => isPlain_capitalize (Text.simpleName name)
  | .declared name (arg :: args) => by
    rw [typeFragment]
    exact (((isPlain_capitalize _).append (by decide)).append (isPlain_typeFragment arg)).append
      (isPlain_fragmentTail args)
  | .wildcard => by rw [typeFragment]; decide
  | .wildcardExtends bound => by
    rw [typeFragment]
    exact IsPlain.append (by decide) (isPlain_typeFragment bound)
  | .wildcardSuper bound => by
    rw [typeFragment]
    exact IsPlain.append (by decide) (isPlain_typeFragment bound)
  | .array component => by
    rw [typeFragment]
    exact (isPlain_typeFragment component).append (by decide)

theorem isPlain_fragmentTail : (args : List TypeRef) → IsPlain (fragmentTail args)
  | [] => by rw [fragmentTail]; decide
  | arg :: args => by
    rw [fragmentTail]
    exact (IsPlain.append (by decide) (isPlain_typeFragment arg)).append (isPlain_fragmentTail args)

end

/-! ## Signatures -/

/-- The sixteen hexadecimal digits, in lower case. -/
def hexDigits : List Char := "0123456789abcdef".toList

theorem hexDigit_mem_hexDigits : ∀ n < 16, Text.Sha256.hexDigit n ∈ hexDigits := by
  decide

theorem mem_hexWord {w : UInt32} {c : Char} (h : c ∈ Text.Sha256.hexWord w) : c ∈ hexDigits := by
  obtain ⟨i, -, rfl⟩ := List.mem_map.1 h
  exact hexDigit_mem_hexDigits _ (Nat.mod_lt _ (by decide))

theorem length_hexWord (w : UInt32) : (Text.Sha256.hexWord w).length = 8 := by
  simp [Text.Sha256.hexWord]

/-- **A signature** is eight hexadecimal digits. -/
theorem shortSignature_spec (text : String) :
    (shortSignature text).toList.length = 8 ∧
      ∀ c ∈ (shortSignature text).toList, c ∈ hexDigits := by
  -- the first word of the digest has as many digits as are taken
  obtain ⟨w, ws, hdigest⟩ : ∃ w ws, Text.Sha256.digest text.toUTF8.toList = w :: ws := ⟨_, _, rfl⟩
  have hword : (shortSignature text).toList = Text.Sha256.hexWord w := by
    rw [shortSignature, String.toList_ofList, Text.Sha256.hexDigest, hdigest, List.flatMap_cons]
    exact List.take_left' (length_hexWord w)
  rw [hword]
  exact ⟨length_hexWord w, fun c => mem_hexWord⟩

/-! ## Identifiers -/

/-- The characters of identifiers: which ones may begin an identifier, and which ones may stand in
it. ASCII letters may do both, and ASCII digits may stand in it. -/
structure Alphabet where
  isStart : Char → Bool
  isPart : Char → Bool
  isPart_of_isStart : ∀ c, isStart c = true → isPart c = true
  isStart_of_isAlpha : ∀ c, c.isAlpha = true → isStart c = true
  isPart_of_isAlphanum : ∀ c, c.isAlphanum = true → isPart c = true

/-- The words that are kept from being identifiers. -/
def reservedWords : List String :=
  ["abstract", "assert", "boolean", "break", "byte", "case", "catch", "char", "class", "const",
   "continue", "default", "do", "double", "else", "enum", "extends", "final", "finally", "float",
   "for", "goto", "if", "implements", "import", "instanceof", "int", "interface", "long", "native",
   "new", "package", "private", "protected", "public", "return", "short", "static", "strictfp",
   "super", "switch", "synchronized", "this", "throw", "throws", "transient", "try", "void",
   "volatile", "while", "_", "true", "false", "null"]

/-- The text is an identifier. -/
def Alphabet.IsIdentifier (A : Alphabet) (text : String) : Prop :=
  (∃ c cs, text.toList = c :: cs ∧ A.isStart c = true ∧ ∀ d ∈ cs, A.isPart d = true) ∧
    text ∉ reservedWords

/-- The identifiers of ASCII. -/
def Alphabet.ascii : Alphabet where
  isStart c := c.isAlpha || c == '_' || c == '$'
  isPart c := c.isAlphanum || c == '_' || c == '$'
  isPart_of_isStart := by
    intro c
    simp only [Char.isAlphanum, Bool.or_eq_true]
    tauto
  isStart_of_isAlpha := by simp +contextual
  isPart_of_isAlphanum := by simp +contextual

instance : Inhabited Alphabet := ⟨.ascii⟩

theorem Alphabet.IsIdentifier.isPart {A : Alphabet} {text : String} (h : A.IsIdentifier text) :
    ∀ c ∈ text.toList, A.isPart c = true := by
  obtain ⟨⟨c, cs, htext, hstart, hpart⟩, -⟩ := h
  rw [htext]
  exact List.forall_mem_cons.2 ⟨A.isPart_of_isStart c hstart, hpart⟩

/-! ## Method names -/

/-- What stands in the name of a method behind the tag. -/
def ending (name : String) (type : TypeRef) (default : Option String) : String :=
  upperCamel name ++ (if type.isString then "" else "As" ++ typeFragment type) ++
    (match default with
      | some value => "WithDefault" ++ shortSignature value
      | none => "")

theorem compose_eq (tag name : String) (type : TypeRef) (default : Option String) :
    compose tag name type default = "provide" ++ tag ++ ending name type default := by
  have hassoc (p u v w : String) : p ++ u ++ v ++ w = p ++ (u ++ v ++ w) := by
    simp only [String.append_assoc]
  exact hassoc _ _ _ _

theorem isAlphanum_of_mem_hexDigits : ∀ c ∈ hexDigits, c.isAlphanum = true := by
  have hplain : IsPlain "0123456789abcdef" := by decide
  exact hplain

theorem isPlain_ending (name : String) (type : TypeRef) (default : Option String) :
    IsPlain (ending name type default) := by
  have htype : IsPlain (if type.isString then "" else "As" ++ typeFragment type) := by
    split
    · decide
    · exact IsPlain.append (by decide) (isPlain_typeFragment type)
  refine ((isPlain_upperCamel name).append htype).append ?_
  cases default with
  | none => decide
  | some value =>
    exact IsPlain.append (by decide) fun c hc =>
      isAlphanum_of_mem_hexDigits c ((shortSignature_spec value).2 c hc)

theorem ending_eq_of_upperCamel_eq {name name' : String} (h : upperCamel name = upperCamel name')
    (type : TypeRef) (default : Option String) :
    ending name type default = ending name' type default := by
  simp only [ending, h]

theorem not_mem_reservedWords (text : String) : "provide" ++ text ∉ reservedWords := by
  intro h
  have hnone : ∀ word ∈ reservedWords, ¬"provide".toList <+: word.toList := by decide
  exact hnone _ h (by simp)

/-- **A method name is an identifier** exactly if its tag may stand in one. -/
theorem isIdentifier_compose_iff (A : Alphabet) (tag name : String) (type : TypeRef)
    (default : Option String) :
    A.IsIdentifier (compose tag name type default) ↔ ∀ c ∈ tag.toList, A.isPart c = true := by
  rw [compose_eq]
  constructor
  · intro h c hc
    exact h.isPart c (by simp [hc])
  · intro h
    have hprovide : IsPlain "rovide" := by decide
    refine ⟨⟨'p', "rovide".toList ++ (tag.toList ++ (ending name type default).toList), ?_,
      A.isStart_of_isAlpha 'p' rfl, ?_⟩, ?_⟩
    · simp
    · intro c hc
      simp only [List.mem_append] at hc
      rcases hc with hc | hc | hc
      · exact A.isPart_of_isAlphanum c (hprovide c hc)
      · exact h c hc
      · exact A.isPart_of_isAlphanum c (isPlain_ending name type default c hc)
    · rw [String.append_assoc]
      exact not_mem_reservedWords _

/-- How the name of a provider method depends on what it is made from. -/
structure Composed (name : String) (type : TypeRef) (default : Option String) : Prop where
  /-- Behind the tag there are ASCII letters and digits only, the same for every tag. -/
  exists_ending : ∃ w : String, (∀ c ∈ w.toList, c.isAlphanum = true) ∧
    ∀ tag, compose tag name type default = "provide" ++ tag ++ w
  isIdentifier : ∀ (A : Alphabet) (tag : String),
    A.IsIdentifier tag → A.IsIdentifier (compose tag name type default)
  /-- A name has one sequence of runs. -/
  existsUnique_runs : ∃! runs, HasRuns name.toList runs
  /-- Names with the same runs up to case make the same method names. -/
  compose_eq_of_runs : ∀ (name' : String) (runs runs' : List (List Char)),
    HasRuns name.toList runs → HasRuns name'.toList runs' →
    runs.map (·.map Char.toLower) = runs'.map (·.map Char.toLower) →
    ∀ tag, compose tag name type default = compose tag name' type default
  upperCamel_append : ∀ (a b : String) (c : Char), c.isAlphanum = false →
    upperCamel (a ++ String.singleton c ++ b) = upperCamel a ++ upperCamel b
  /-- What a default adds. -/
  signature : ∀ value, default = some value →
    (shortSignature value).toList.length = 8 ∧
      ∀ c ∈ (shortSignature value).toList, c ∈ "0123456789abcdef".toList

/-- **Method names** are made of letters and digits. -/
theorem composed_compose (name : String) (type : TypeRef) (default : Option String) :
    Composed name type default where
  exists_ending := ⟨ending name type default, isPlain_ending name type default,
    fun tag => compose_eq tag name type default⟩
  isIdentifier := fun A tag h => (isIdentifier_compose_iff A tag name type default).2 h.isPart
  existsUnique_runs := ⟨words name.toList, hasRuns_words _, fun _ h => h.words_eq.symm⟩
  compose_eq_of_runs := by
    intro name' runs runs' h h' hsame tag
    rw [← h.words_eq, ← h'.words_eq] at hsame
    rw [compose_eq, compose_eq, ending_eq_of_upperCamel_eq (upperCamel_eq_of_words hsame)]
  upperCamel_append := fun a b _ hc => upperCamel_append a b hc
  signature := fun value _ => shortSignature_spec value

end Wiring.MethodName
