import CollisionMesh.Grid
import CollisionMesh.Options

/-!
# Surface records

One initializer of the generated array: the names of a surface and a terrain, a force, and the
three corners of a triangle on the collision grid.
-/

namespace CollisionMesh

set_option autoImplicit false

structure SurfaceRecord where
  surface : String
  force : Int
  terrain : String
  corners : Corners Int
  deriving DecidableEq, Repr, Inhabited

def braced (text : String) : String := "\x7b" ++ text ++ "\x7d"

/-- Three coordinates between braces. -/
def Point.initializer (p : Point Int) : String :=
  braced (p.x.repr ++ "," ++ p.y.repr ++ "," ++ p.z.repr)

namespace SurfaceRecord

/-- The initializer of the record, without blanks. -/
def text (record : SurfaceRecord) : String :=
  braced (record.surface ++ "," ++ record.force.repr ++ "," ++ record.terrain ++ "," ++
    braced (record.corners.a.initializer ++ "," ++ record.corners.b.initializer ++ "," ++
      record.corners.c.initializer))

/-- The force of every record that a conversion makes. -/
def reservedForce : Int := 0

/-- The identifier of the material of a triangle, unless it has none or a blank one. -/
def material? (options : Options) (tag : Option String) : Option String :=
  (tag.map (Identifier.ofMaterial options.materialLead)).filter fun name => !name.isEmpty

/-- The record of a triangle: its material fills the field that the options
say, defaults the others. -/
def ofTriangle (options : Options) (triangle : Triangle Int) : SurfaceRecord :=
  let (surface, terrain) :=
    match options.materialUse, material? options triangle.tag with
    | .surface, some name => (name, options.defaultTerrain)
    | .terrain, some name => (options.defaultSurface, name)
    | _, _ => (options.defaultSurface, options.defaultTerrain)
  ⟨surface, reservedForce, terrain, triangle.corners⟩

end SurfaceRecord

end CollisionMesh
