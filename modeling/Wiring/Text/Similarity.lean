/-!
# Similarity of names

The Jaro–Winkler similarity of two texts, between 0 and 1. Two characters match if they are equal
and their positions differ by less than half the longer length; each character matches at most once.
The Jaro similarity is the mean of the matched parts of both texts and of the part of the matches
that stand in the same order. A common start of up to four characters raises a similarity above 0.7.
-/

namespace Wiring.Text

/-- Marks the first unmarked `c` whose position, counted from `i`, is at least `lo` and below
`hi`. -/
def markMatch (c : Char) (lo hi : Nat) (i : Nat) :
    List (Char × Bool) → Option (List (Char × Bool))
  | [] => none
  | (d, marked) :: rest =>
    if hi ≤ i then none
    else if lo ≤ i && c == d && !marked then some ((d, true) :: rest)
    else (markMatch c lo hi (i + 1) rest).map ((d, marked) :: ·)

/-- The matched characters of both texts, each in the order of its text. `i` is the position of the
first of the characters still to be matched. -/
def matched (range : Nat) (i : Nat) (bs : List (Char × Bool)) :
    List Char → List Char × List Char
  | [] => ([], (bs.filter (·.2)).map (·.1))
  | c :: cs =>
    match markMatch c (i - range) (i + range + 1) 0 bs with
    | some bs' => let (left, right) := matched range (i + 1) bs' cs; (c :: left, right)
    | none => matched range (i + 1) bs cs

def jaro (a b : List Char) : Float :=
  if a.isEmpty && b.isEmpty then 1
  else
    let range := max a.length b.length / 2 - 1
    let (left, right) := matched range 0 (b.map (·, false)) a
    if left.isEmpty then 0
    else
      let transpositions := ((left.zip right).filter fun (c, d) => c != d).length / 2
      let m := left.length.toFloat
      (m / a.length.toFloat + m / b.length.toFloat +
        (left.length - transpositions).toFloat / m) / 3

/-- The length of the common start of two texts. -/
def commonStart : List Char → List Char → Nat
  | c :: cs, d :: ds => if c = d then commonStart cs ds + 1 else 0
  | _, _ => 0

/-- The Jaro–Winkler similarity. -/
def similarity (a b : String) : Float :=
  let score := jaro a.toList b.toList
  if score > 0.7 then
    score + 0.1 * (commonStart (a.toList.take 4) (b.toList.take 4)).toFloat * (1 - score)
  else score

end Wiring.Text
