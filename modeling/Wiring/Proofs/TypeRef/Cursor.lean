import Wiring.Proofs.Text.Bytes
import Wiring.TypeRef.Parser

/-!
# Cursors

Where a reader of type references is in its text, as an offset in bytes, and what it has done to come
there. A cursor is safe if the reader has only gone forward, has cut the text between characters only,
and has begun each part of a type behind the beginning of that type.
-/

namespace Wiring.TypeRef

open Text (IsBoundary)

/-- Where a reader is, and what it has done so far. -/
structure Cursor where
  offset : Nat := 0
  /-- The offsets at which it has been before, in order. -/
  left : List Nat := []
  /-- The slices that it took, in order. -/
  slices : List (Nat × Nat) := []
  /-- The types that were begun as a part of another one, in order: where the other one was begun, and
  where the part was. -/
  parts : List (Nat × Nat) := []
deriving DecidableEq, Repr

namespace Cursor

variable {t : String} {c c' c'' : Cursor} {i j : Nat}

/-- All offsets at which the reader has been, in order. -/
def path (c : Cursor) : List Nat := c.left ++ [c.offset]

def moveTo (j : Nat) (c : Cursor) : Cursor :=
  { c with offset := j, left := c.path }

def cut (start stop : Nat) (c : Cursor) : Cursor :=
  { c with slices := c.slices ++ [(start, stop)] }

/-- A part of the type that was begun at `start` is begun here. -/
def beginPart (start : Nat) (c : Cursor) : Cursor :=
  { c with parts := c.parts ++ [(start, c.offset)] }

/-- The reader has never gone back, and it has always been between two characters of the text. Its
slices lie in the text, in order and between characters. What it began as a part of a type, it began
behind that type's beginning. -/
structure Safe (t : String) (c : Cursor) : Prop where
  ordered : c.path.Pairwise (· ≤ ·)
  inside : ∀ i ∈ c.path, i ≤ t.utf8ByteSize ∧ IsBoundary t i
  slices : ∀ slice ∈ c.slices,
    slice.1 ≤ slice.2 ∧ slice.2 ≤ t.utf8ByteSize ∧ IsBoundary t slice.1 ∧ IsBoundary t slice.2
  parts : ∀ part ∈ c.parts, part.1 < part.2

theorem path_moveTo (j : Nat) (c : Cursor) : (c.moveTo j).path = c.path ++ [j] := rfl

theorem safe_start (t : String) : ({} : Cursor).Safe t where
  ordered := List.pairwise_singleton _ _
  inside := by
    intro i hi
    rw [List.mem_singleton.1 hi]
    exact ⟨Nat.zero_le _, (Text.tailAt_zero t).isBoundary⟩
  slices := nofun
  parts := nofun

namespace Safe

theorem isBoundary (h : c.Safe t) : IsBoundary t c.offset := (h.inside c.offset (by simp [path])).2

theorem le_offset (h : c.Safe t) : ∀ i ∈ c.path, i ≤ c.offset := by
  intro i hi
  rcases List.mem_append.1 hi with hleft | hi
  · exact (List.pairwise_append.1 h.ordered).2.2 i hleft c.offset (List.mem_singleton_self _)
  · exact (List.mem_singleton.1 hi).le

theorem moveTo (h : c.Safe t) (hle : c.offset ≤ j) (hj : IsBoundary t j) : (c.moveTo j).Safe t where
  ordered := by
    rw [path_moveTo]
    refine List.pairwise_append.2 ⟨h.ordered, List.pairwise_singleton _ _, fun i hi k hk => ?_⟩
    rw [List.mem_singleton.1 hk]
    exact Nat.le_trans (h.le_offset i hi) hle
  inside := by
    intro i hi
    rw [path_moveTo] at hi
    rcases List.mem_append.1 hi with hi | hi
    · exact h.inside i hi
    · rw [List.mem_singleton.1 hi]
      exact ⟨hj.le, hj⟩
  slices := h.slices
  parts := h.parts

theorem cut (h : c.Safe t) (hle : i ≤ j) (hi : IsBoundary t i) (hj : IsBoundary t j) :
    (c.cut i j).Safe t where
  ordered := h.ordered
  inside := h.inside
  slices := by
    intro slice hslice
    rcases List.mem_append.1 hslice with hslice | hslice
    · exact h.slices slice hslice
    · rw [List.mem_singleton.1 hslice]
      exact ⟨hle, hj.le, hi, hj⟩
  parts := h.parts

theorem beginPart (h : c.Safe t) (hlt : i < c.offset) : (c.beginPart i).Safe t where
  ordered := h.ordered
  inside := h.inside
  slices := h.slices
  parts := by
    intro part hpart
    rcases List.mem_append.1 hpart with hpart | hpart
    · exact h.parts part hpart
    · rwa [List.mem_singleton.1 hpart]

end Safe

/-- What a reader does to a safe cursor: it is safe afterwards, and no further in front. -/
structure Leads (t : String) (c c' : Cursor) : Prop where
  safe : c'.Safe t
  le : c.offset ≤ c'.offset

theorem Safe.leads (h : c.Safe t) : Leads t c c := ⟨h, le_rfl⟩

theorem Leads.trans (h : Leads t c c') (h' : Leads t c' c'') : Leads t c c'' :=
  ⟨h'.safe, h.le.trans h'.le⟩

end Cursor

end Wiring.TypeRef
