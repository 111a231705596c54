import CollisionMesh.Number.Literal

/-!
# Literals read in steps

How the numbers of triangle lists are read. As many digits as fit into 64 bits make a whole
number, which is rounded and then multiplied or divided by a power of ten that is rounded too. The
result is the nearest number while the whole number and the power are exact, and beyond that it
may be a neighbour of it.
-/

namespace CollisionMesh

set_option autoImplicit false

/-- The largest whole number of 64 bits. -/
def wordMax : Nat := 0xFFFFFFFFFFFFFFFF

/-- Appends digits to a whole number while it fits into 64 bits; the second part is
the digits left over. -/
def appendDigits (value : Nat) : List Char → Nat × List Char
  | [] => (value, [])
  | c :: cs =>
    let appended := 10 * value + (c.toNat - '0'.toNat)
    if appended ≤ wordMax then appendDigits appended cs else (value, c :: cs)

namespace Binary64

/-- The largest exponent of a power of ten within the finite numbers. -/
def maxPowerOfTen : Nat := 308

/-- The number nearest to a power of ten. -/
def powerOfTen (exponent : Nat) : Binary64 := Decimal.toBinary64 ⟨false, 1, exponent⟩

/-- Multiplies a number that is not negative by a power of ten. A division by a power
that is no finite number is done in several, and a multiplication by one gives infinity
unless the number is zero. -/
def scaleByTen (x : Binary64) (exponent : Int) : Binary64 :=
  if exponent.natAbs ≤ maxPowerOfTen then
    if 0 ≤ exponent then x.mul (powerOfTen exponent.natAbs) else x.div (powerOfTen exponent.natAbs)
  else if x = zero false then x
  else if 0 ≤ exponent then infinite false
  else scaleByTen (x.div (powerOfTen maxPowerOfTen)) (exponent + maxPowerOfTen)
termination_by exponent.natAbs
decreasing_by
  simp only [maxPowerOfTen] at *
  omega

end Binary64

/-- The value of a literal, read in steps. Digits that are left over only count as places. -/
def Literal.stepwise (literal : Literal) : Binary64 :=
  let (value, wholeLeft) := appendDigits 0 literal.whole
  let (value, fractionLeft) := appendDigits value literal.fraction
  (Binary64.ofInt value).scaleByTen
    (literal.exponent + wholeLeft.length + fractionLeft.length - literal.fraction.length)

end CollisionMesh
