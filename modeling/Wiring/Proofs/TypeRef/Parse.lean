import Wiring.Proofs.TypeRef.Completeness
import Wiring.Proofs.TypeRef.Soundness

/-!
# Parsing and the canonical text

A text parses to a reference exactly if the reference is well formed and the text spells its tokens.
The canonical text is such a spelling, so it parses back, and no two well-formed references share
one.
-/

namespace Wiring.TypeRef

open Text (skipBlanks exists_skipBlanks)

variable {t : TypeRef}

/-- **Parsing accepts exactly the spellings of well-formed references.** -/
theorem parse_eq_ok_iff {input : String} :
    parse input = .ok t ↔ t.WellFormed ∧ Spaced t.tokens input.toList := by
  rw [parse_eq_ok_iff_reads]
  constructor
  · intro h
    obtain ⟨rest, hread, hrest⟩ := h
    obtain ⟨⟨hwell, hspaced⟩, _⟩ := (spells_of_reads _).1 _ t rest (Nat.le_refl _) hread
    obtain ⟨blanks, hblanks, hcs⟩ := exists_skipBlanks rest
    rw [hrest, List.append_nil] at hcs
    have := hspaced [] (hcs ▸ .nil hblanks)
    rw [List.append_nil] at this
    exact ⟨hwell, this⟩
  · intro h
    obtain ⟨hwell, hspaced⟩ := h
    have hnil : Follows [] := nofun
    rw [← List.append_nil t.tokens] at hspaced
    obtain ⟨rest, hread, hrest⟩ := readsSoFar_of_spaced t hwell hspaced hnil fun _ => nofun
    refine ⟨rest, hread.readsType (hnil.noBracket hrest nofun), ?_⟩
    cases hhead : (skipBlanks rest).head? with
    | none => exact List.head?_eq_none_iff.1 hhead
    | some c => cases (hnil.head_skipBlanks hrest hhead).2

/-- A reference that some text denotes. -/
def IsParsed (t : TypeRef) : Prop := ∃ input, parse input = .ok t

theorem WellFormed.parse_text (h : t.WellFormed) : parse t.text = .ok t := by
  have hspaced : Spaced (t.tokens ++ []) (t.text.toList ++ []) :=
    spaced_text (.nil (List.forall_mem_nil _)) t
  rw [List.append_nil, List.append_nil] at hspaced
  exact parse_eq_ok_iff.2 ⟨h, hspaced⟩

theorem isParsed_iff : t.IsParsed ↔ t.WellFormed := by
  constructor
  · rintro ⟨input, h⟩
    exact (parse_eq_ok_iff.1 h).1
  · intro h
    exact ⟨t.text, h.parse_text⟩

/-- **References that can be parsed are told apart by their canonical texts.** -/
theorem eq_of_text_eq {s t : TypeRef} (hs : s.IsParsed) (ht : t.IsParsed) (h : s.text = t.text) :
    s = t := by
  have hparse := (isParsed_iff.1 hs).parse_text
  rw [h, (isParsed_iff.1 ht).parse_text] at hparse
  cases hparse
  rfl

theorem isParsed_string : string.IsParsed :=
  isParsed_iff.2 ⟨by decide, trivial⟩

theorem isParsed_listOf {element : TypeRef} (h : element.IsParsed) : (listOf element).IsParsed :=
  isParsed_iff.2 ⟨by decide, isParsed_iff.1 h, trivial⟩

end Wiring.TypeRef
