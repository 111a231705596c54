import CollisionMesh.Number.Literal

/-!
# Moments

Dates, times of day, and both together with an optional distance from universal time. Every moment
has one text: the seconds are always written, a fraction only as far as it has digits other than
zero, and letters in upper case.
-/

namespace CollisionMesh.Toml

set_option autoImplicit false

structure Date where
  year : Nat
  month : Nat
  day : Nat
  deriving DecidableEq, Repr, Inhabited

structure TimeOfDay where
  hour : Nat
  minute : Nat
  second : Nat
  nanosecond : Nat
  deriving DecidableEq, Repr, Inhabited

inductive TimeOffset where
  | unstated
  | universal
  | minutes (value : Int)
  deriving DecidableEq, Repr, Inhabited

/-- A date, a time of day, or both. -/
inductive Moment where
  | date (day : Date)
  | time (clock : TimeOfDay)
  | dateTime (day : Date) (clock : TimeOfDay) (offset : TimeOffset)
  deriving DecidableEq, Repr, Inhabited

/-- The value of exactly `count` digits, if it lies in a range. -/
def readField? (count low high : Nat) (cs : List Char) : Option Nat :=
  if cs.length = count ∧ cs.all Char.isDigit then
    some (digitsValue cs) |>.filter fun value => low ≤ value && value ≤ high
  else none

/-- A number in decimal digits, with zeros in front up to a width. -/
def paddedDigits (width value : Nat) : List Char :=
  let digits := Nat.toDigits 10 value
  List.replicate (width - digits.length) '0' ++ digits

def daysIn (year month : Nat) : Nat :=
  if month = 2 then
    if (year % 4 = 0 ∧ year % 100 ≠ 0) ∨ year % 400 = 0 then 29 else 28
  else if month = 4 ∨ month = 6 ∨ month = 9 ∨ month = 11 then 30
  else 31

namespace Date

/-- Year, month and day with dashes between them; the calendar must have the day. -/
def ofText? (cs : List Char) : Option Date :=
  match cs.splitOn '-' with
  | [year, month, day] => do
    let year ← readField? 4 0 9999 year
    let month ← readField? 2 1 12 month
    let day ← readField? 2 1 (daysIn year month) day
    return ⟨year, month, day⟩
  | _ => none

def text (date : Date) : List Char :=
  paddedDigits 4 date.year ++ '-' :: paddedDigits 2 date.month ++ '-' :: paddedDigits 2 date.day

end Date

namespace TimeOfDay

/-- The number of digits of a second's fraction that are kept. -/
def fractionDigits : Nat := 9

/-- The nanoseconds of a fraction of a second; digits beyond the ninth are dropped. -/
def readFraction? (cs : List Char) : Option Nat :=
  if isDigitRun cs then
    let kept := cs.take fractionDigits
    some (digitsValue (kept ++ List.replicate (fractionDigits - kept.length) '0'))
  else none

/-- Seconds, a leap second included, with a fraction if there is a point. -/
def readSecond? (cs : List Char) : Option (Nat × Nat) :=
  match cs.splitOn '.' with
  | [second] => (readField? 2 0 60 second).map fun second => (second, 0)
  | [second, fraction] => do return (← readField? 2 0 60 second, ← readFraction? fraction)
  | _ => none

/-- Hour, minute and second with colons between them; the seconds may be left out. -/
def ofText? (cs : List Char) : Option TimeOfDay :=
  match cs.splitOn ':' with
  | [hour, minute] => do return ⟨← readField? 2 0 23 hour, ← readField? 2 0 59 minute, 0, 0⟩
  | [hour, minute, second] => do
    let hour ← readField? 2 0 23 hour
    let minute ← readField? 2 0 59 minute
    let (second, nanosecond) ← readSecond? second
    return ⟨hour, minute, second, nanosecond⟩
  | _ => none

/-- A point and the digits of a fraction up to the last one that is not zero. -/
def fractionText (nanosecond : Nat) : List Char :=
  if nanosecond = 0 then []
  else '.' :: ((paddedDigits fractionDigits nanosecond).reverse.dropWhile (· == '0')).reverse

/-- Hour, minute and second with colons between them. -/
def text (time : TimeOfDay) : List Char :=
  paddedDigits 2 time.hour ++ ':' :: paddedDigits 2 time.minute ++ ':' ::
    paddedDigits 2 time.second ++ fractionText time.nanosecond

end TimeOfDay

namespace TimeOffset

/-- The letter of universal time, or a sign with hours and minutes. -/
def ofText? : List Char → Option TimeOffset
  | [] => some .unstated
  | ['Z'] => some .universal
  | ['z'] => some .universal
  | sign :: rest =>
    if sign = '+' ∨ sign = '-' then
      match rest.splitOn ':' with
      | [hourDigits, minuteDigits] => do
        let hour ← readField? 2 0 23 hourDigits
        let minute ← readField? 2 0 59 minuteDigits
        let distance : Int := hour * 60 + minute
        return .minutes (if sign = '-' then -distance else distance)
      | _ => failure
    else failure

/-- The letter of universal time, or a sign with hours and minutes; no distance has a plus. -/
def text : TimeOffset → List Char
  | .unstated => []
  | .universal => ['Z']
  | .minutes value =>
    (if value < 0 then '-' else '+') ::
      paddedDigits 2 (value.natAbs / 60) ++ ':' :: paddedDigits 2 (value.natAbs % 60)

end TimeOffset

namespace Moment

/-- Whether a text begins like a date, that is with four digits and a dash. -/
def beginsLikeDate (cs : List Char) : Bool :=
  (cs.take 4).all Char.isDigit && (cs.drop 4).head? == some '-'

def isClockChar (c : Char) : Bool := c.isDigit || c == ':' || c == '.'

/-- A date, a time of day, or both with a letter or a blank between them. -/
def ofText? (cs : List Char) : Option Moment :=
  if beginsLikeDate cs then do
    let day ← Date.ofText? (cs.take 10)
    match cs.drop 10 with
    | [] => return .date day
    | separator :: rest =>
      if separator = 'T' ∨ separator = 't' ∨ separator = ' ' then do
        let clock ← TimeOfDay.ofText? (rest.takeWhile isClockChar)
        let offset ← TimeOffset.ofText? (rest.dropWhile isClockChar)
        return .dateTime day clock offset
      else failure
  else (TimeOfDay.ofText? cs).map .time

def text : Moment → String
  | .date day => String.ofList day.text
  | .time clock => String.ofList clock.text
  | .dateTime day clock offset => String.ofList (day.text ++ 'T' :: clock.text ++ offset.text)

end Moment

end CollisionMesh.Toml
