/-!
What a reader leaves of the characters that it was given. The bounds on the length are what makes
readers that call each other end.
-/

namespace Wiring.Text

/-- What is left of `cs` after reading at least one character. -/
abbrev Rest (cs : List Char) := { rest : List Char // rest.length < cs.length }

/-- What is left of `cs` after reading any number of characters. -/
abbrev Remainder (cs : List Char) := { rest : List Char // rest.length ≤ cs.length }

namespace Remainder

variable {cs : List Char}

theorem length_le (r : Remainder cs) : r.1.length ≤ cs.length := r.2

/-- All of `cs` is left. -/
def all (cs : List Char) : Remainder cs := ⟨cs, Nat.le_refl cs.length⟩

/-- What is left after the first `count` characters, or fewer if there are not so many. -/
def drop (count : Nat) (cs : List Char) : Remainder cs :=
  ⟨cs.drop count, (List.drop_sublist count cs).length_le⟩

/-- What a second reader leaves of the remainder. -/
def andThen (r : Remainder cs) (s : Remainder r.1) : Remainder cs :=
  ⟨s.1, Nat.le_trans s.2 r.2⟩

/-- What a second reader leaves of the remainder, when it reads at least one character. -/
def andThenRest (r : Remainder cs) (s : Rest r.1) : Rest cs :=
  ⟨s.1, Nat.lt_of_lt_of_le s.2 r.2⟩

end Remainder

namespace Rest

variable {cs : List Char}

theorem length_lt (r : Rest cs) : r.1.length < cs.length := r.2

/-- What is left after the first character. -/
def tail {c : Char} (rest : List Char) : Rest (c :: rest) := ⟨rest, Nat.lt_succ_self rest.length⟩

/-- A rest is a remainder. -/
def toRemainder (r : Rest cs) : Remainder cs := ⟨r.1, Nat.le_of_lt r.2⟩

/-- What a second reader leaves of the rest. -/
def andThen (r : Rest cs) (s : Remainder r.1) : Rest cs := ⟨s.1, Nat.lt_of_le_of_lt s.2 r.2⟩

/-- What a second reader leaves of the rest, when it reads at least one character. -/
def andThenRest (r : Rest cs) (s : Rest r.1) : Rest cs := r.andThen s.toRemainder

end Rest

/-- The first character of `cs`, and what is left after it. -/
def next? : (cs : List Char) → Option (Char × Rest cs)
  | [] => none
  | c :: rest => some (c, .tail rest)

/-- What is left after the character `c` at the start of `cs`. -/
def afterChar? (c : Char) : (cs : List Char) → Option (Rest cs)
  | [] => none
  | d :: rest => if d = c then some (.tail rest) else none

end Wiring.Text
