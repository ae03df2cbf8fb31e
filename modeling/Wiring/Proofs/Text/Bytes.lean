import Mathlib.Data.String.Basic

/-!
# Texts as bytes

A text is its UTF-8 bytes, and an offset counts these. Where a character begins, or the text ends,
a text can be cut. A byte of ASCII stands for a character by itself and is no part of another one;
so an offset at which such a byte is found is one at which the text can be cut.
-/

namespace Wiring.Text

open String (utf8Len utf8Len_append utf8Len_cons utf8ByteSize_ofList utf8EncodeChar)

variable {t : String} {i l : Nat} {cs as : List Char} {a c : Char}

/-- The byte at an offset, if the text is that long. -/
def byteAt? (t : String) (i : Nat) : Option UInt8 := t.toUTF8[i]?

/-- The byte at an offset is that of this character. -/
def hasByte (t : String) (i : Nat) (a : Char) : Bool := byteAt? t i == some a.toUInt8

/-- A character begins at the offset, or the text ends there. -/
def IsBoundary (t : String) (i : Nat) : Prop := String.Pos.Raw.IsValid t ⟨i⟩

instance (t : String) (i : Nat) : Decidable (IsBoundary t i) :=
  inferInstanceAs (Decidable (String.Pos.Raw.IsValid t ⟨i⟩))

theorem IsBoundary.le (h : IsBoundary t i) : i ≤ t.utf8ByteSize := h.le_rawEndPos

/-- What stands between two offsets. Nothing can be cut out unless both are boundaries, in order. -/
def slice? (t : String) (start stop : Nat) : Option String :=
  if h : IsBoundary t start ∧ IsBoundary t stop ∧ start ≤ stop then
    some (String.extract ⟨⟨start⟩, h.1⟩ ⟨⟨stop⟩, h.2.1⟩)
  else none

/-! ## The bytes of a character -/

theorem utf8EncodeChar_of_ascii (ha : a.utf8Size = 1) : utf8EncodeChar a = [a.toUInt8] :=
  String.utf8EncodeChar_eq_singleton ha

theorem toNat_toUInt8 (ha : a.utf8Size = 1) : a.toUInt8.toNat = a.val.toNat := by
  have hle : a.val.toNat ≤ 127 := Char.utf8Size_eq_one_iff.1 ha
  rw [Char.toUInt8, UInt32.toNat_toUInt8]
  omega

theorem eq_of_toUInt8_eq (ha : a.utf8Size = 1) (hc : c.utf8Size = 1) (h : a.toUInt8 = c.toUInt8) :
    a = c := by
  apply Char.ext
  apply UInt32.toNat_inj.1
  rw [← toNat_toUInt8 ha, ← toNat_toUInt8 hc, h]

/-- A character that is not of ASCII has no byte of ASCII. -/
theorem le_of_mem_utf8EncodeChar {b : UInt8} (hc : c.utf8Size ≠ 1) (h : b ∈ utf8EncodeChar c) :
    128 ≤ b.toNat := by
  have hc' : ¬c.val.toNat ≤ 127 := fun hle => hc (Char.utf8Size_eq_one_iff.2 hle)
  unfold utf8EncodeChar at h
  simp only [hc', if_false] at h
  split at h
  · simp only [List.mem_cons, List.not_mem_nil, or_false] at h
    rcases h with rfl | rfl <;> simp only [UInt8.toNat_ofNat'] <;> omega
  · split at h
    · simp only [List.mem_cons, List.not_mem_nil, or_false] at h
      rcases h with rfl | rfl | rfl <;> simp only [UInt8.toNat_ofNat'] <;> omega
    · simp only [List.mem_cons, List.not_mem_nil, or_false] at h
      rcases h with rfl | rfl | rfl | rfl <;> simp only [UInt8.toNat_ofNat'] <;> omega

/-- **A byte of ASCII** among those of some characters is one of these characters. -/
theorem exists_of_getElem?_bytes (ha : a.utf8Size = 1)
    (h : (cs.flatMap utf8EncodeChar)[l]? = some a.toUInt8) :
    ∃ before after, cs = before ++ a :: after ∧ utf8Len before = l := by
  induction cs generalizing l with
  | nil => cases h
  | cons c cs ih =>
    rw [List.flatMap_cons] at h
    by_cases hl : l < (utf8EncodeChar c).length
    · rw [List.getElem?_append_left hl] at h
      have hmem := List.mem_of_getElem? h
      have hc : c.utf8Size = 1 := by
        by_contra hc
        have hlarge := le_of_mem_utf8EncodeChar hc hmem
        have hsmall : a.val.toNat ≤ 127 := Char.utf8Size_eq_one_iff.1 ha
        rw [toNat_toUInt8 ha] at hlarge
        omega
      rw [utf8EncodeChar_of_ascii hc, List.mem_singleton] at hmem
      rw [String.length_utf8EncodeChar, hc, Nat.lt_one_iff] at hl
      refine ⟨[], cs, ?_, hl.symm⟩
      rw [eq_of_toUInt8_eq ha hc hmem, List.nil_append]
    · rw [List.getElem?_append_right (Nat.le_of_not_lt hl)] at h
      obtain ⟨before, after, rfl, hbefore⟩ := ih h
      refine ⟨c :: before, after, rfl, ?_⟩
      rw [String.length_utf8EncodeChar] at hl hbefore
      rw [utf8Len_cons]
      omega

/-! ## The characters from an offset on -/

/-- From an offset on the text has these characters. -/
def TailAt (t : String) (i : Nat) (cs : List Char) : Prop :=
  ∃ before, t.toList = before ++ cs ∧ utf8Len before = i

theorem tailAt_zero (t : String) : TailAt t 0 t.toList := ⟨[], rfl, rfl⟩

theorem toByteArray_eq (t : String) :
    t.toByteArray = (t.toList.flatMap utf8EncodeChar).toByteArray := by
  conv_lhs => rw [← String.ofList_toList (s := t), String.toByteArray_ofList]
  rfl

theorem byteAt?_eq (t : String) (i : Nat) :
    byteAt? t i = (t.toList.flatMap utf8EncodeChar)[i]? := by
  have hbytes : t.toUTF8.data = (t.toList.flatMap utf8EncodeChar).toArray := by
    rw [String.toUTF8_eq_toByteArray, toByteArray_eq, List.data_toByteArray]
  have hdata : byteAt? t i = t.toUTF8.data[i]? := rfl
  rw [hdata, hbytes, List.getElem?_toArray]

theorem utf8Len_toList (t : String) : utf8Len t.toList = t.utf8ByteSize := by
  rw [← utf8ByteSize_ofList, String.ofList_toList]

theorem utf8Len_pos (h : cs ≠ []) : 0 < utf8Len cs :=
  Nat.pos_of_ne_zero (mt String.utf8Len_eq_zero.1 h)

theorem utf8Len_eq_length (cs : List Char) : utf8Len cs = (cs.flatMap utf8EncodeChar).length := by
  induction cs with
  | nil => rfl
  | cons c cs ih =>
    rw [utf8Len_cons, List.flatMap_cons, List.length_append, String.length_utf8EncodeChar, ih,
      Nat.add_comm]

namespace TailAt

theorem eq_append (h : TailAt t i cs) :
    ∃ before, t = before ++ String.ofList cs ∧ before.utf8ByteSize = i := by
  obtain ⟨before, ht, hi⟩ := h
  refine ⟨String.ofList before, ?_, by rw [utf8ByteSize_ofList, hi]⟩
  rw [← String.ofList_append, ← ht, String.ofList_toList]

theorem append (h : TailAt t i (as ++ cs)) : TailAt t (i + utf8Len as) cs := by
  obtain ⟨before, ht, hi⟩ := h
  exact ⟨before ++ as, by rw [ht, List.append_assoc], by rw [utf8Len_append, hi]⟩

theorem cons (h : TailAt t i (a :: cs)) (ha : a.utf8Size = 1) : TailAt t (i + 1) cs := by
  have htail : TailAt t (i + utf8Len [a]) cs := TailAt.append h
  rwa [utf8Len_cons, String.utf8Len_nil, ha] at htail

theorem add_eq (h : TailAt t i cs) : i + utf8Len cs = t.utf8ByteSize := by
  obtain ⟨before, rfl, rfl⟩ := h.eq_append
  rw [String.utf8ByteSize_append, utf8ByteSize_ofList]

theorem unique {j : Nat} (h : TailAt t i cs) (h' : TailAt t j cs) : i = j := by
  have := h.add_eq
  have := h'.add_eq
  omega

theorem lt (h : TailAt t i (c :: cs)) : i < t.utf8ByteSize := by
  have := h.add_eq
  have := utf8Len_pos (List.cons_ne_nil c cs)
  omega

theorem isBoundary (h : TailAt t i cs) : IsBoundary t i := by
  obtain ⟨before, rfl, rfl⟩ := h.eq_append
  exact String.Pos.Raw.isValid_iff_exists_append.2 ⟨_, _, rfl, rfl⟩

theorem byteAt?_add (h : TailAt t i cs) (l : Nat) :
    byteAt? t (i + l) = (cs.flatMap utf8EncodeChar)[l]? := by
  obtain ⟨before, ht, rfl⟩ := h
  rw [byteAt?_eq, ht, List.flatMap_append, utf8Len_eq_length,
    List.getElem?_append_right (Nat.le_add_right _ l), Nat.add_sub_cancel_left]

/-- A byte of ASCII is found where its character is. -/
theorem exists_of_hasByte (h : TailAt t i cs) (ha : a.utf8Size = 1)
    (hbyte : hasByte t (i + l) a = true) :
    ∃ before after, cs = before ++ a :: after ∧ utf8Len before = l := by
  rw [hasByte, beq_iff_eq, h.byteAt?_add] at hbyte
  exact exists_of_getElem?_bytes ha hbyte

theorem exists_of_hasByte_lt (h : TailAt t i (as ++ cs)) (ha : a.utf8Size = 1)
    (hl : l < utf8Len as) (hbyte : hasByte t (i + l) a = true) :
    ∃ before after, as = before ++ a :: after ∧ utf8Len before = l := by
  obtain ⟨before, after, hsplit, rfl⟩ := h.exists_of_hasByte ha hbyte
  rcases List.append_eq_append_iff.1 hsplit with ⟨mid, rfl, -⟩ | ⟨mid, rfl, hmid⟩
  · rw [utf8Len_append] at hl
    omega
  · cases mid with
    | nil =>
      rw [List.append_nil] at hl
      exact absurd hl (Nat.lt_irrefl _)
    | cons c mid =>
      cases hmid
      exact ⟨before, mid, rfl, rfl⟩

theorem hasByte_iff (h : TailAt t i cs) (ha : a.utf8Size = 1) :
    hasByte t i a = true ↔ cs.head? = some a := by
  constructor
  · intro hbyte
    obtain ⟨before, after, rfl, hbefore⟩ := h.exists_of_hasByte (l := 0) ha hbyte
    rw [String.utf8Len_eq_zero] at hbefore
    rw [hbefore]
    rfl
  · intro hhead
    obtain ⟨after, rfl⟩ := List.head?_eq_some_iff.1 hhead
    have hbyte := h.byteAt?_add 0
    rw [List.flatMap_cons, utf8EncodeChar_of_ascii ha] at hbyte
    rw [hasByte, beq_iff_eq]
    exact hbyte

theorem extract_eq (h : TailAt t i (as ++ cs)) :
    t.toByteArray.extract i (i + utf8Len as) = (String.ofList as).toByteArray := by
  obtain ⟨before, rfl, rfl⟩ := h.eq_append
  have hsize : utf8Len as = (String.ofList as).toByteArray.size := (utf8ByteSize_ofList as).symm
  have hskip := ByteArray.extract_append_size_add (a := before.toByteArray)
    (b := (String.ofList (as ++ cs)).toByteArray) (i := 0) (j := utf8Len as)
  rw [Nat.add_zero] at hskip
  rw [String.toByteArray_append]
  refine hskip.trans ?_
  rw [String.ofList_append, String.toByteArray_append, hsize,
    ByteArray.extract_append_eq_left rfl]

/-- The first characters from an offset on can be cut out. -/
theorem slice?_eq (h : TailAt t i (as ++ cs)) :
    slice? t i (i + utf8Len as) = some (String.ofList as) := by
  rw [slice?, dif_pos ⟨h.isBoundary, h.append.isBoundary, Nat.le_add_right _ _⟩,
    Option.some.injEq, ← String.toByteArray_inj, String.toByteArray_extract]
  exact h.extract_eq

end TailAt

theorem isBoundary_size (t : String) : IsBoundary t t.utf8ByteSize := by
  have hall : TailAt t 0 (t.toList ++ []) := by
    rw [List.append_nil]
    exact tailAt_zero t
  have hend := hall.append.isBoundary
  rwa [Nat.zero_add, utf8Len_toList] at hend

end Wiring.Text
