import CollisionMesh.FileSystem.Text
import CollisionMesh.Mesh.Reader
import CollisionMesh.Mesh.Triangulation
import CollisionMesh.Surface.Source

/-!
# Conversion

From a mesh file to a surface array: read, triangulate, move to the grid, name, write. The names of
the array and of the generated file are those of the options or follow from the path of the input.
-/

namespace CollisionMesh

set_option autoImplicit false

/-- A generated file, and what happened on the way to it. -/
structure Artifact where
  path : Path
  symbol : String
  recordCount : Nat
  clampedComponents : Nat
  skippedFaces : Nat
  skippedVertices : Nat
  deriving DecidableEq, Repr, Inhabited

structure Conversion where
  symbol : String
  records : List SurfaceRecord
  source : String
  clampedComponents : Nat
  skippedFaces : Nat
  skippedVertices : Nat
  deriving DecidableEq, Repr, Inhabited

/-- What there is to report about a conversion that is written to a path. -/
def Conversion.artifact (conversion : Conversion) (path : Path) : Artifact where
  path := path
  symbol := conversion.symbol
  recordCount := conversion.records.length
  clampedComponents := conversion.clampedComponents
  skippedFaces := conversion.skippedFaces
  skippedVertices := conversion.skippedVertices

namespace Options

/-- The symbol of an input: the configured one, or the stem of its file name, as an identifier. -/
def symbolFor (options : Options) (input : Path) : String :=
  let name := Identifier.sanitize (options.symbol.getD (input.fileStem?.getD ""))
  if name.isEmpty then "level" else name

/-- Where the generated file of an input goes if nobody says otherwise. -/
def outputFor (options : Options) (input : Path) : Path :=
  let directory := (options.outputDirectory <|> input.parent?).getD ⟨""⟩
  directory.join ⟨Identifier.arrayName (options.symbolFor input) ++ ".c"⟩

/-- A point in the axes and the scale of the grid, not yet cut to whole numbers. -/
def scalePoint (options : Options) (p : Point Binary64) : Point Binary64 :=
  (options.axisMap.apply p).map fun x => x.mul options.scale

end Options

def Triangle.scaledCorners (options : Options) (triangle : Triangle Binary64) : Corners Binary64 :=
  triangle.corners.map options.scalePoint

def Triangle.toGrid (options : Options) (triangle : Triangle Binary64) : Triangle Int :=
  ⟨(triangle.scaledCorners options).toGrid, triangle.tag⟩

/-- The records of a mesh, in the order of its triangles, and the number of clamped components. -/
def Mesh.surfaceRecords (mesh : Mesh) (options : Options) :
    Except Failure (List SurfaceRecord × Nat) := do
  let triangles ← mesh.triangulate
  if triangles.isEmpty then .error (.noFaces mesh.path)
  else
    return (triangles.map fun t => SurfaceRecord.ofTriangle options (t.toGrid options),
      clampedCount (triangles.map fun t => t.scaledCorners options))

def sourceFor (options : Options) (input : Path) (records : List SurfaceRecord) : String :=
  SurfaceArray.source ⟨options.symbolFor input, input.fileName?, options.includes, records⟩

def FileSystem.convert (fs : FileSystem) (options : Options) (input : Path) :
    Except Failure Conversion := do
  options.check
  let mesh ← Mesh.load fs options.malformedVertex input
  let (records, clampedComponents) ← mesh.surfaceRecords options
  return {
    symbol := options.symbolFor input
    records := records
    source := sourceFor options input records
    clampedComponents := clampedComponents
    skippedFaces := mesh.skippedFaces
    skippedVertices := mesh.skippedVertices }

def FileSystem.convertTo (fs : FileSystem) (options : Options) (input output : Path) :
    Except Failure Artifact × FileSystem :=
  fs.publish output ((fs.convert options input).map fun conversion =>
    (conversion.artifact output, conversion.source))

end CollisionMesh
