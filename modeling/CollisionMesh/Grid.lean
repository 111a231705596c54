import CollisionMesh.Geometry

/-!
# The collision grid

Collision vertices are whole numbers of 16 bits. A number is cut toward zero to its whole part
and then held to the limits of the grid; whether it had to be held is reported, so that a
conversion can count it.
-/

namespace CollisionMesh

set_option autoImplicit false

/-- The largest magnitude of a grid coordinate. -/
def gridLimit : Int := 0x7FFF

/-- The grid coordinate of a number, and whether it lay beyond the limits. -/
def Binary64.toGrid (x : Binary64) : Int × Bool :=
  let held := max (-gridLimit) (min gridLimit x.wholePart)
  (held, held != x.wholePart)

namespace Point

def toGrid (p : Point Binary64) : Point Int := p.map fun x => x.toGrid.1

end Point

namespace Corners

def toGrid (t : Corners Binary64) : Corners Int := t.map Point.toGrid

end Corners

/-- How many components of triangles lie beyond the limits of the grid. -/
def clampedCount (triangles : List (Corners Binary64)) : Nat :=
  (triangles.flatMap Corners.components).countP fun x => x.toGrid.2

theorem clampedCount_append (ts us : List (Corners Binary64)) :
    clampedCount (ts ++ us) = clampedCount ts + clampedCount us := by
  simp [clampedCount]

theorem toGrid_mem_range (x : Binary64) : -gridLimit ≤ x.toGrid.1 ∧ x.toGrid.1 ≤ gridLimit := by
  simp only [Binary64.toGrid, gridLimit]
  omega

end CollisionMesh
