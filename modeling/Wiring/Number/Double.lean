import Wiring.Text.Digits

/-!
# Doubles

The numbers of the binary floating-point format with 64 bits, read from decimal text to the nearest
and written in the fewest digits that read back, without an exponent. Each is a multiple of the
smallest positive one, `2 ^ -1074`, and that multiple is how it is kept.
-/

namespace Wiring

structure Double where
  negative : Bool
  /-- The magnitude in units of `2 ^ -1074`. -/
  units : Nat
deriving DecidableEq, Repr, Inhabited

/-- The number `digits * 10 ^ exponent`. -/
structure Decimal where
  digits : Nat
  exponent : Int
deriving DecidableEq, Repr, Inhabited

def twoTo (n : Nat) : Nat := Nat.pow 2 n

def tenTo (n : Nat) : Nat := Nat.pow 10 n

/-- The same number without zeros at the end of its digits. -/
def Decimal.reduced (d : Decimal) : Decimal :=
  let zeros := ((Nat.toDigits 10 d.digits).reverse.takeWhile (· == '0')).length
  ⟨d.digits / tenTo zeros, d.exponent + zeros⟩

namespace Double

/-- The units of the number one. -/
def one : Nat := twoTo 1074

/-- The units of the infinite magnitude, which comes after the greatest finite one. -/
def infinite : Nat := twoTo 1024 * one

/-- The distance between magnitudes near `units`: 53 bits are kept. -/
def spacing (units : Nat) : Nat := if units < twoTo 53 then 1 else twoTo (units.log2 - 52)

/-- The magnitude nearest to `num / den` units; of two that are equally near, the even one. -/
def nearest (num den : Nat) : Nat :=
  let gap := spacing (num / den)
  let below := num / (den * gap)
  let excess := 2 * (num % (den * gap))
  let roundsDown := excess < den * gap || (excess == den * gap && below % 2 == 0)
  min ((if roundsDown then below else below + 1) * gap) infinite

/-- The magnitude nearest to a decimal. The bounds on the size keep the powers of ten small and lie
beyond the greatest and the smallest magnitude. -/
def ofDecimal (d : Decimal) : Nat :=
  let size := d.exponent + (Nat.toDigits 10 d.digits).length
  if d.digits = 0 ∨ size < -330 then 0
  else if 310 < size then infinite
  else nearest (d.digits * tenTo d.exponent.toNat * one) (tenTo (-d.exponent).toNat)

/-! ## Reading -/

/-- The sign at the start of a text, whether it is a minus, and the rest. -/
def readSign : List Char → Bool × List Char
  | '-' :: rest => (true, rest)
  | '+' :: rest => (false, rest)
  | cs => (false, cs)

/-- The exponent that a text writes with its mark, or zero if it is empty. -/
def exponent? : List Char → Option Int
  | [] => some 0
  | mark :: rest =>
    let (negative, digits) := readSign rest
    if mark == 'e' || mark == 'E' then
      (Text.natural? digits).map fun n => if negative then -(n : Int) else n
    else none

/-- The decimal that a text without a sign writes. -/
def decimal? (cs : List Char) : Option Decimal := do
  let whole := cs.takeWhile Char.isDigit
  let (fraction, rest) := match cs.dropWhile Char.isDigit with
    | '.' :: rest => (rest.takeWhile Char.isDigit, rest.dropWhile Char.isDigit)
    | rest => ([], rest)
  let digits ← Text.natural? (whole ++ fraction)
  return ⟨digits, (← exponent? rest) - fraction.length⟩

/-- The double that a text writes, which is no number if nothing is in it. -/
def read? (text : String) : Option (Option Double) :=
  let (negative, body) := readSign text.toList
  let word := String.ofList (body.map Char.toLower)
  if word == "nan" then some none
  else if word == "inf" || word == "infinity" then some (some ⟨negative, infinite⟩)
  else (decimal? body).map fun d => some ⟨negative, ofDecimal d⟩

/-! ## Writing -/

/-- The multiple of `10 ^ exponent` at or below a magnitude. -/
def floorOn (exponent : Int) (units : Nat) : Nat :=
  units * tenTo (-exponent).toNat / (one * tenTo exponent.toNat)

/-- The multiple of `10 ^ exponent` nearest to a magnitude among those that read back as it; of two
that are equally near, the greater. -/
def onGrid? (units : Nat) (exponent : Int) : Option Decimal :=
  let below : Decimal := ⟨floorOn exponent units, exponent⟩
  let above : Decimal := { below with digits := below.digits + 1 }
  let isNearerBelow := floorOn exponent (2 * units) == 2 * below.digits
  match ofDecimal below == units, ofDecimal above == units with
  | true, true => some (if isNearerBelow then below else above)
  | true, false => some below
  | false, true => some above
  | false, false => none

/-- How many digits a positive magnitude has before its point; less than one if it begins with
zeros after the point. -/
def scale (units : Nat) : Int :=
  if one ≤ units then (Nat.toDigits 10 (units / one)).length
  else 1 - (((List.range 325).find? fun n => one ≤ units * tenTo n).getD 325 : Nat)

/-- The shortest decimal that reads back as a positive finite magnitude. Seventeen digits are
enough; the exact value stands in for the case that they were not. -/
def shortest (units : Nat) : Decimal :=
  ((List.range 17).findSome? fun n => onGrid? units (scale units - (n + 1 : Nat))).getD
    ⟨units * Nat.pow 5 1074, -1074⟩

end Double

/-- The digits of a decimal, with the point in its place. -/
def Decimal.text (d : Decimal) : String :=
  let digits := Nat.toDigits 10 d.digits
  let point := digits.length + d.exponent
  String.ofList <|
    if 0 ≤ d.exponent then digits ++ List.replicate d.exponent.toNat '0'
    else if point ≤ 0 then '0' :: '.' :: List.replicate (-point).toNat '0' ++ digits
    else digits.take point.toNat ++ '.' :: digits.drop point.toNat

def Double.text (d : Double) : String :=
  (if d.negative then "-" else "") ++
  if d.units = 0 then "0"
  else if d.units = infinite then "inf"
  else (shortest d.units).reduced.text

/-- Doubles compare by value; the two zeros are equal. -/
def Double.compare (a b : Double) : Ordering :=
  let signed (d : Double) : Int := if d.negative then -(d.units : Int) else d.units
  Ord.compare (signed a) (signed b)

end Wiring
