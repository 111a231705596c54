import CollisionMesh.Conversion
import CollisionMesh.TriangleList.Reader

/-!
# Conversion in two stages

A mesh can be saved as a list of scaled triangles, which is not yet cut to the grid, and
such a list can be converted to a surface array. The list keeps no materials, so all its
records have the defaults.
-/

namespace CollisionMesh

set_option autoImplicit false

/-- The magnitude that stands for an infinite coordinate: far beyond the grid,
so that it is clamped. -/
def saturatedMagnitude (negative : Bool) : Binary64 := Decimal.toBinary64 ⟨negative, 1, 300⟩

/-- A number that a list can keep: NaN becomes 0, and an infinity a large number of its sign. -/
def Binary64.toListed : Binary64 → Binary64
  | .nan => .zero false
  | .infinite negative => saturatedMagnitude negative
  | x => x

namespace FileSystem

def scaledTriangles (fs : FileSystem) (options : Options) (input : Path) :
    Except Failure (List (Corners Binary64)) := do
  options.check
  let mesh ← Mesh.load fs options.malformedVertex input
  let triangles ← mesh.triangulate
  if triangles.isEmpty then .error (.noFaces input)
  else
    return triangles.map fun t =>
      (t.scaledCorners options).map fun p => p.map Binary64.toListed

/-- Saves the scaled triangles of a mesh; the outcome is their number. -/
def exportTriangles (fs : FileSystem) (options : Options) (input output : Path) :
    Except Failure Nat × FileSystem :=
  fs.publish output ((fs.scaledTriangles options input).map fun triangles =>
    (triangles.length, TriangleList.text triangles))

def loadTriangles (fs : FileSystem) (input : Path) : Except Failure (List (Corners Binary64)) := do
  let text ← (fs.readText input).mapError (Failure.file input)
  match TriangleList.ofText? text with
  | some triangles => .ok triangles
  | none => .error (.malformedTriangles input)

def convertTriangles (fs : FileSystem) (options : Options) (input : Path) :
    Except Failure Conversion := do
  options.check
  let triangles ← fs.loadTriangles input
  if triangles.isEmpty then .error (.noFaces input)
  else
    let records := triangles.map fun t => SurfaceRecord.ofTriangle options ⟨t.toGrid, none⟩
    return {
      symbol := options.symbolFor input
      records := records
      source := sourceFor options input records
      clampedComponents := clampedCount triangles
      skippedFaces := 0
      skippedVertices := 0 }

def convertTrianglesTo (fs : FileSystem) (options : Options) (input output : Path) :
    Except Failure Artifact × FileSystem :=
  fs.publish output ((fs.convertTriangles options input).map fun conversion =>
    (conversion.artifact output, conversion.source))

end FileSystem

end CollisionMesh
