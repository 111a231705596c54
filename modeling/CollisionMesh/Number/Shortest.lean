import CollisionMesh.Number.Literal

/-!
# Shortest decimals

The decimal with the fewest digits that rounds to a given binary64 magnitude. From the coarsest
decimal grid on, the two neighbours of the value on the grid are tried, the nearer one first, and
the first grid on which one of them rounds to the given code wins.
-/

namespace CollisionMesh.Shortest

set_option autoImplicit false

/-- The value of a code in units of `10 ^ -1074`, exactly. -/
def scaledUnits (code : Nat) : Nat := Binary64.units code * Nat.pow 5 1074

/-- Whether `digits * 10 ^ (places - 1074)` rounds to the magnitude with this code. -/
def roundsTo (code digits places : Nat) : Bool :=
  Binary64.nearestCode (digits * Nat.pow 10 places) (Nat.pow 5 1074) == code

/-- The two neighbours of `value` among the multiples of `step`, as quotients, the nearer one first;
of two equally near ones the even one is first. -/
def neighbours (value step : Nat) : List Nat :=
  let below := value / step
  if roundDiv value step = below then [below, below + 1] else [below + 1, below]

/-- A multiple of `10 ^ places` next to the value that rounds to the code, unless the value
is below all of them. -/
def onGrid? (code value places : Nat) : Option (Nat × Nat) :=
  let step := Nat.pow 10 places
  if value < step then none
  else
    ((neighbours value step).find? fun digits => roundsTo code digits places).map
      fun digits => (digits, places)

/-- The power of ten of the coarsest grid that is tried. Since `log 2` is just below `0.30103`, it
is that of the first digit of the value or the one above it. -/
def coarsestGrid (value : Nat) : Nat := (value.log2 + 1) * 30103 / 100000

/-- The digits and the power of ten of the shortest decimal for a code; the exact value if all else
fails. No code needs more than 17 digits, so 18 grids are enough. -/
def ofCode (code : Nat) : Nat × Int :=
  let value := scaledUnits code
  let coarsest := coarsestGrid value
  match (List.range 18).findSome? fun finer => onGrid? code value (coarsest - finer) with
  | some (digits, places) => (digits, (places : Int) - 1074)
  | none => (value, -1074)

end CollisionMesh.Shortest
