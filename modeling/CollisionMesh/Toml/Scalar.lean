import CollisionMesh.Number.Literal
import CollisionMesh.Toml.Moment
import CollisionMesh.Toml.Value

/-!
# TOML scalars

The values that are written without quotes and brackets: truth values, numbers and moments. Each
reader takes the whole text of a value.
-/

namespace CollisionMesh.Toml

set_option autoImplicit false

/-- The digits of a text in which single underscores may stand between digits. -/
def ungroup? (isDigit : Char → Bool) (cs : List Char) : Option (List Char) :=
  let groups := cs.splitOn '_'
  if groups.all fun group => !group.isEmpty && group.all isDigit then some groups.flatten else none

def digitValue (c : Char) : Nat :=
  if c.isDigit then c.toNat - '0'.toNat else c.toLower.toNat - 'a'.toNat + 10

def isDigitOf (base : Nat) (c : Char) : Bool :=
  (c.isDigit || ('a' ≤ c.toLower && c.toLower ≤ 'f')) && digitValue c < base

/-- A whole number in a base that is not ten, without its mark. -/
def readBase? (base : Nat) (cs : List Char) : Option Int :=
  (ungroup? (isDigitOf base) cs).map fun digits =>
    (digits.foldl (fun value c => base * value + digitValue c) 0 : Nat)

/-- The digits of a whole part: no zero before other digits. -/
def wholeDigits? (cs : List Char) : Option (List Char) :=
  (ungroup? Char.isDigit cs).filter fun digits => digits.head? != some '0' || digits.length == 1

def readInteger? : List Char → Option Int
  | '0' :: 'x' :: cs => readBase? 16 cs
  | '0' :: 'o' :: cs => readBase? 8 cs
  | '0' :: 'b' :: cs => readBase? 2 cs
  | cs =>
    let (negative, body) := splitSign cs
    (wholeDigits? body).map fun digits =>
      if negative then -(digitsValue digits : Int) else digitsValue digits

/-- The exponent of a number: an optional sign and digits, zeros in front allowed. -/
def readGroupedExponent? (cs : List Char) : Option Int :=
  let (negative, body) := splitSign cs
  (ungroup? Char.isDigit body).map fun digits =>
    if negative then -(digitsValue digits : Int) else digitsValue digits

/-- A number with a point or an exponent. -/
def readDecimal? (cs : List Char) : Option Decimal := do
  let (negative, body) := splitSign cs
  let mantissa := body.takeWhile fun c => c != 'e' && c != 'E'
  let exponentPart := body.dropWhile fun c => c != 'e' && c != 'E'
  let exponent ← if exponentPart.isEmpty then some 0 else readGroupedExponent? exponentPart.tail
  match mantissa.splitOn '.' with
  | [whole] =>
    if exponentPart.isEmpty then none
    else (wholeDigits? whole).map fun digits => ⟨negative, digitsValue digits, exponent⟩
  | [whole, fraction] =>
    let digits ← wholeDigits? whole
    let places ← ungroup? Char.isDigit fraction
    return ⟨negative, digitsValue (digits ++ places), exponent - places.length⟩
  | _ => none

def readFloat? (cs : List Char) : Option Value :=
  let (negative, body) := splitSign cs
  if body = "inf".toList then some (.float (.infinite negative))
  else if body = "nan".toList then some (.float .nan)
  else
    (readDecimal? cs).map fun decimal =>
      match decimal.toBinary64 with
      | .finite negative code => .float (.finite negative code)
      | _ => .overflow

/-- The range of the whole numbers that some reader takes: signed and unsigned ones of 128 bits. -/
def integerRange : Int × Int :=
  (-0x80000000000000000000000000000000, 0x100000000000000000000000000000000)

/-- The value of a text without quotes and brackets. -/
def readScalar? (cs : List Char) : Option Value :=
  if cs = "true".toList then some (.boolean true)
  else if cs = "false".toList then some (.boolean false)
  else
    match readInteger? cs with
    | some n =>
      some (if integerRange.1 ≤ n ∧ n < integerRange.2 then .integer n else .overflow)
    | none => (readFloat? cs).or ((Moment.ofText? cs).map .moment)

end CollisionMesh.Toml
