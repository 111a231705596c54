/-!
# Binary64 numbers

A finite number is a sign and a *code*, the rank of its magnitude among all finite magnitudes, so
that neighbouring codes are neighbouring numbers. `units` gives the magnitude that a code stands
for, as a whole number of the smallest positive magnitude `2 ^ -1074`, and `nearestCode` finds the
code nearest to a quotient of such units. All NaNs are one value.
-/

namespace CollisionMesh

set_option autoImplicit false

/-- How many magnitudes a binade has, `2 ^ 52`. -/
abbrev binadeSize : Nat := 0x10000000000000

/-- How many finite magnitudes there are, those of 2047 binades. -/
abbrev magnitudeCount : Nat := 0x7FF0000000000000

/-- The number 1 in units of `2 ^ -1074`. -/
def unitsPerOne : Nat := 1 <<< 1074

inductive Binary64 where
  | nan
  | infinite (negative : Bool)
  | finite (negative : Bool) (code : Fin magnitudeCount)
  deriving DecidableEq, Repr, Inhabited

/-- The quotient rounded to the nearest whole number, a half to the even neighbour. -/
def roundDiv (num den : Nat) : Nat :=
  let quotient := num / den
  let remainder := num % den
  if 2 * remainder < den ∨ (2 * remainder = den ∧ quotient % 2 = 0) then quotient else quotient + 1

namespace Binary64

/-- The magnitude with the given code, in units of `2 ^ -1074`. -/
def units (code : Nat) : Nat :=
  if code < 2 * binadeSize then code
  else (binadeSize + code % binadeSize) <<< (code / binadeSize - 1)

/-- The code of the magnitude nearest to `num / den` units, a tie going to the even code. A mantissa
that rounds up to `2 ^ 53` carries into the next binade by the addition. Codes from `magnitudeCount`
on are beyond the finite numbers. -/
def nearestCode (num den : Nat) : Nat :=
  let shift := (num / den).log2 - 52
  roundDiv num (den <<< shift) + shift * binadeSize

/-- The number with the given sign nearest to `num / den` units; infinite beyond the largest. -/
def ofRatio (negative : Bool) (num den : Nat) : Binary64 :=
  let code := nearestCode num den
  if h : code < magnitudeCount then finite negative ⟨code, h⟩ else infinite negative

def ofInt (n : Int) : Binary64 := ofRatio (n < 0) (n.natAbs * unitsPerOne) 1

def zero (negative : Bool) : Binary64 := finite negative ⟨0, by decide⟩

def isFinite : Binary64 → Bool
  | finite _ _ => true
  | _ => false

def neg : Binary64 → Binary64
  | nan => nan
  | infinite negative => infinite (!negative)
  | finite negative code => finite (!negative) code

/-- The product, rounded once. Two magnitudes of `a` and `b` units multiply to `a * b / unitsPerOne`
units; an infinity times zero has no value. -/
def mul : Binary64 → Binary64 → Binary64
  | nan, _ => nan
  | _, nan => nan
  | infinite s, infinite t => infinite (s != t)
  | infinite s, finite t code => if code.val = 0 then nan else infinite (s != t)
  | finite s code, infinite t => if code.val = 0 then nan else infinite (s != t)
  | finite s a, finite t b => ofRatio (s != t) (units a * units b) unitsPerOne

/-- The quotient, rounded once. Two magnitudes of `a` and `b` units have the quotient `a / b`, which
is `a * unitsPerOne / b` units; zero by zero and infinity by infinity have no value. -/
def div : Binary64 → Binary64 → Binary64
  | nan, _ => nan
  | _, nan => nan
  | infinite _, infinite _ => nan
  | infinite s, finite t _ => infinite (s != t)
  | finite s _, infinite t => zero (s != t)
  | finite s a, finite t b =>
    if b.val = 0 then (if a.val = 0 then nan else infinite (s != t))
    else ofRatio (s != t) (units a * unitsPerOne) (units b)

/-- The bits of the interchange format, read as a natural number. -/
def toBits : Binary64 → Nat
  | nan => 0x7FF8000000000000
  | infinite negative => (if negative then 0x8000000000000000 else 0) + magnitudeCount
  | finite negative code => (if negative then 0x8000000000000000 else 0) + code

/-- The first whole number beyond the range of a signed 64-bit integer, `2 ^ 63`. -/
def int64Limit : Int := 0x8000000000000000

/-- A whole number held to the range of a signed 64-bit integer. -/
def holdToInt64 (n : Int) : Int := max (-int64Limit) (min (int64Limit - 1) n)

/-- The whole part, toward zero, held to the range of a signed 64-bit integer: beyond the range it
is the nearer bound, and NaN counts as 0. -/
def wholePart : Binary64 → Int
  | nan => 0
  | infinite negative => if negative then -int64Limit else int64Limit - 1
  | finite negative code =>
    let whole : Int := units code / unitsPerOne
    holdToInt64 (if negative then -whole else whole)

@[simp] theorem neg_neg (x : Binary64) : x.neg.neg = x := by
  cases x <;> simp [neg]

end Binary64

end CollisionMesh
