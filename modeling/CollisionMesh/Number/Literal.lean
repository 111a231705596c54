import CollisionMesh.Number.Binary64

/-!
# Number literals

Reading whole numbers and binary64 numbers from decimal text. `Literal` is the form of a decimal
literal and `Decimal` its exact value, which `Decimal.toBinary64` rounds correctly;
`Binary64.ofText?` is the grammar of the numbers in meshes and options.
-/

namespace CollisionMesh

set_option autoImplicit false

/-- The value of a run of decimal digits, most significant first. -/
def digitsValue (digits : List Char) : Nat :=
  digits.foldl (fun value c => 10 * value + (c.toNat - '0'.toNat)) 0

def isDigitRun (cs : List Char) : Bool :=
  !cs.isEmpty && cs.all Char.isDigit

/-- Takes one optional sign off; the first part says whether it was a minus. -/
def splitSign : List Char → Bool × List Char
  | '-' :: cs => (true, cs)
  | '+' :: cs => (false, cs)
  | cs => (false, cs)

/-- A whole number: an optional sign and then digits only, at least one. -/
def readInt? (cs : List Char) : Option Int :=
  let (negative, digits) := splitSign cs
  if isDigitRun digits then
    some (if negative then -(digitsValue digits : Int) else digitsValue digits)
  else none

/-- A whole number in the range of a signed 64-bit integer. -/
def readInt64? (cs : List Char) : Option Int64 :=
  (readInt? cs).bind fun value =>
    if -Binary64.int64Limit ≤ value ∧ value < Binary64.int64Limit then some (Int64.ofInt value)
    else none

/-- The exact value of a decimal literal: `digits * 10 ^ exponent`, with a sign that zero keeps. -/
structure Decimal where
  negative : Bool
  digits : Nat
  exponent : Int
  deriving DecidableEq, Repr, Inhabited

namespace Decimal

/-- The nearest binary64 number, a tie going to the even code. With `n` digits the value lies in
`[10 ^ (n - 1 + exponent), 10 ^ (n + exponent))`, so an exponent that is far out is settled without
forming its power. -/
def toBinary64 (d : Decimal) : Binary64 :=
  let top : Int := (Nat.toDigits 10 d.digits).length + d.exponent
  if d.digits = 0 ∨ top < -330 then Binary64.zero d.negative
  else if 310 < top then .infinite d.negative
  else Binary64.ofRatio d.negative
    (d.digits * Nat.pow 10 d.exponent.toNat * unitsPerOne) (Nat.pow 10 (-d.exponent).toNat)

end Decimal

/-- The exponent part of a literal, absent or `e` and a whole number with an optional sign. -/
def readExponent? : List Char → Option Int
  | [] => some 0
  | c :: cs => if c = 'e' ∨ c = 'E' then readInt? cs else none

/-- A decimal literal without sign: the digits before and after its point, and its power of ten. -/
structure Literal where
  whole : List Char
  fraction : List Char
  exponent : Int
  deriving DecidableEq, Repr, Inhabited

namespace Literal

/-- Digits with an optional point, at least one digit on either side of it, and
an optional exponent. -/
def ofText? (cs : List Char) : Option Literal :=
  let whole := cs.takeWhile Char.isDigit
  let (fraction, rest) :=
    match cs.dropWhile Char.isDigit with
    | '.' :: tail => (tail.takeWhile Char.isDigit, tail.dropWhile Char.isDigit)
    | rest => ([], rest)
  if whole.isEmpty && fraction.isEmpty then none
  else (readExponent? rest).map fun exponent => ⟨whole, fraction, exponent⟩

/-- The exact value of the literal, with a sign. -/
def decimal (literal : Literal) (negative : Bool) : Decimal :=
  ⟨negative, digitsValue (literal.whole ++ literal.fraction),
    literal.exponent - literal.fraction.length⟩

end Literal

/-- A binary64 number in text: an optional sign, then `inf`, `infinity` or `nan` in any case, or a
decimal literal. Nothing else may stand before or after it. -/
def Binary64.ofText? (cs : List Char) : Option Binary64 :=
  let (negative, body) := splitSign cs
  let name := body.map Char.toLower
  if name = "inf".toList ∨ name = "infinity".toList then some (.infinite negative)
  else if name = "nan".toList then some .nan
  else (Literal.ofText? body).map fun literal => (literal.decimal negative).toBinary64

theorem isDigit_of_isDigitRun {cs : List Char} (h : isDigitRun cs = true) {c : Char} (hc : c ∈ cs) :
    c.isDigit = true := by
  simp only [isDigitRun, Bool.and_eq_true, List.all_eq_true] at h
  exact h.2 c hc

end CollisionMesh
