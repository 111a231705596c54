import CollisionMesh.Number.Shortest
import CollisionMesh.Geometry

/-!
# Triangle lists

Scaled triangles as a JSON text: a list of triangles of three points of three numbers, one value to
a line, indented by two blanks to a level. A number has the fewest digits that read back.
-/

namespace CollisionMesh.TriangleList

set_option autoImplicit false

/-- Exponents of ten from which on, and before which, a number is written without an exponent. -/
def positionalRange : Int × Int := (-5, 16)

/-- A whole number with its sign, also a plus. -/
def signedText (n : Int) : List Char :=
  if n < 0 then '-' :: Nat.toDigits 10 n.natAbs else '+' :: Nat.toDigits 10 n.natAbs

/-- Digits with a point after the first `whole` of them; zeros fill what is
missing on either side. -/
def positionalText (digits : List Char) (whole : Int) : List Char :=
  if whole ≤ 0 then '0' :: '.' :: List.replicate (-whole).toNat '0' ++ digits
  else
    let before := whole.toNat
    let after := digits.drop before
    digits.take before ++ List.replicate (before - digits.length) '0' ++
      '.' :: (if after.isEmpty then ['0'] else after)

/-- The digits with a point after the first of them, and the exponent of the first. -/
def exponentialText (digits : List Char) (exponent : Int) : List Char :=
  (match digits with
    | first :: rest@(_ :: _) => first :: '.' :: rest
    | digits => digits) ++
    'e' :: signedText exponent

/-- The digits of a positive number without zeros at the end, and the exponent
of the first of them. -/
def magnitudeText (digits : Nat) (exponent : Int) : List Char :=
  let all := Nat.toDigits 10 digits
  let significant := (all.reverse.dropWhile fun c => c == '0').reverse
  let leading : Int := exponent + all.length - 1
  if positionalRange.1 ≤ leading ∧ leading < positionalRange.2 then
    positionalText significant (leading + 1)
  else exponentialText significant leading

/-- A number as a value of the list; there is no text for numbers that are not finite. -/
def numberText : Binary64 → List Char
  | .finite negative code =>
    let magnitude :=
      if code.val = 0 then ['0', '.', '0']
      else magnitudeText (Shortest.ofCode code).1 (Shortest.ofCode code).2
    if negative then '-' :: magnitude else magnitude
  | _ => ['n', 'u', 'l', 'l']

/-- Values between brackets, one to a line, at a level of indentation. -/
def bracketed (level : Nat) : List (List Char) → List Char
  | [] => ['[', ']']
  | values =>
    let indented := values.map fun value => List.replicate (2 * (level + 1)) ' ' ++ value
    '[' :: '\n' :: [',', '\n'].intercalate indented ++
      '\n' :: List.replicate (2 * level) ' ' ++ [']']

def pointText (p : Point Binary64) : List Char := bracketed 2 (p.toList.map numberText)

def cornersText (t : Corners Binary64) : List Char := bracketed 1 (t.toList.map pointText)

/-- The text of a list of triangles, without a line feed at its end. -/
def text (triangles : List (Corners Binary64)) : String :=
  String.ofList (bracketed 0 (triangles.map cornersText))

end CollisionMesh.TriangleList
