import Wiring.Text.Digits

/-!
# Dates and times

    moment = date [ ( "T" | " " ) time [ offset ] ] | time
    date   = YYYY "-" MM "-" DD
    time   = HH ":" MM [ ":" SS [ "." fraction ] ]
    offset = "Z" | ( "+" | "-" ) HH ":" MM

A day is one of its month, and a minute may have a leap second. Writing puts a moment into one form:
seconds are there, and the digits of the fraction end with the ninth or with the last that is not
zero.
-/

namespace Wiring.Toml

structure Date where
  year : Nat
  month : Nat
  day : Nat
deriving DecidableEq, Repr

structure Time where
  hour : Nat
  minute : Nat
  second : Nat := 0
  nanosecond : Nat := 0
deriving DecidableEq, Repr

/-- A distance from universal time in minutes. -/
inductive Offset
  | universal
  | minutes (count : Int)
deriving DecidableEq, Repr

/-- A date, a time, or both with an offset or without one. -/
inductive Moment
  | date (date : Date)
  | time (time : Time)
  | both (date : Date) (time : Time) (offset : Option Offset)
deriving DecidableEq, Repr

/-! ## Reading -/

def isLeapYear (year : Nat) : Bool :=
  year % 4 == 0 && (year % 100 != 0 || year % 400 == 0)

def daysIn (year month : Nat) : Nat :=
  if month == 2 then (if isLeapYear year then 29 else 28)
  else if month ∈ [4, 6, 9, 11] then 30
  else 31

/-- The number from `least` to `most` that two digits write. -/
def twoDigits? (least most : Nat) (a b : Char) : Option Nat :=
  (Text.natural? [a, b]).filter fun n => least ≤ n && n ≤ most

def Date.ofChars? : List Char → Option Date
  | [y₁, y₂, y₃, y₄, '-', m₁, m₂, '-', d₁, d₂] => do
    let year ← Text.natural? [y₁, y₂, y₃, y₄]
    let month ← twoDigits? 1 12 m₁ m₂
    return ⟨year, month, ← twoDigits? 1 (daysIn year month) d₁ d₂⟩
  | _ => none

/-- The nanoseconds that the digits of a fraction of a second write. -/
def nanoseconds? (digits : List Char) : Option Nat :=
  (Text.natural? digits).map fun _ =>
    Text.digitsValue ((digits ++ List.replicate 9 '0').take 9)

def Time.ofChars? : List Char → Option Time
  | h₁ :: h₂ :: ':' :: m₁ :: m₂ :: rest => do
    let time : Time := { hour := ← twoDigits? 0 23 h₁ h₂, minute := ← twoDigits? 0 59 m₁ m₂ }
    match rest with
    | [] => return time
    | [':', a, b] => return { time with second := ← twoDigits? 0 60 a b }
    | ':' :: a :: b :: '.' :: digits =>
      return { time with second := ← twoDigits? 0 60 a b, nanosecond := ← nanoseconds? digits }
    | _ => none
  | _ => none

/-- The offset that a text writes; an empty one writes none. -/
def Offset.ofChars? : List Char → Option (Option Offset)
  | [] => some none
  | ['Z'] | ['z'] => some (some universal)
  | [sign, h₁, h₂, ':', m₁, m₂] => do
    let count : Nat := 60 * (← twoDigits? 0 23 h₁ h₂) + (← twoDigits? 0 59 m₁ m₂)
    if sign == '+' then return some (minutes count)
    else if sign == '-' then return some (minutes (-count))
    else none
  | _ => none

def isOffsetMark (c : Char) : Bool := c == 'Z' || c == 'z' || c == '+' || c == '-'

def Moment.ofChars? (cs : List Char) : Option Moment :=
  match Date.ofChars? (cs.take 10), cs.drop 10 with
  | some d, [] => some (date d)
  | some d, separator :: rest =>
    if separator ∈ ['T', 't', ' '] then do
      let t ← Time.ofChars? (rest.takeWhile (!isOffsetMark ·))
      return both d t (← Offset.ofChars? (rest.dropWhile (!isOffsetMark ·)))
    else none
  | none, _ => (Time.ofChars? cs).map time

/-! ## Writing -/

def Date.text (d : Date) : String :=
  Text.padded 4 d.year ++ "-" ++ Text.padded 2 d.month ++ "-" ++ Text.padded 2 d.day

/-- The digits of a fraction of a second with the point before them, or nothing for zero. -/
def fractionText (nanosecond : Nat) : String :=
  let digits := ((Text.padded 9 nanosecond).toList.reverse.dropWhile (· == '0')).reverse
  if digits.isEmpty then "" else "." ++ String.ofList digits

def Time.text (t : Time) : String :=
  Text.padded 2 t.hour ++ ":" ++ Text.padded 2 t.minute ++ ":" ++ Text.padded 2 t.second ++
  fractionText t.nanosecond

def Offset.text : Offset → String
  | universal => "Z"
  | minutes count =>
    (if count < 0 then "-" else "+") ++
    Text.padded 2 (count.natAbs / 60) ++ ":" ++ Text.padded 2 (count.natAbs % 60)

def Moment.text : Moment → String
  | date d => d.text
  | time t => t.text
  | both d t offset => d.text ++ "T" ++ t.text ++ ((offset.map Offset.text).getD "")

end Wiring.Toml
