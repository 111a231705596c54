import CollisionMesh.Mesh

/-!
# Reading meshes

A mesh file is its lines, one after the other. `Reading.add` is what one line does to what has been
read so far; the first line that cannot be read ends the reading, unless it is a vertex and the
policy is to skip those.
-/

namespace CollisionMesh

set_option autoImplicit false

/-- What has been read so far, and the material in force. -/
structure Reading where
  mesh : Mesh
  material : Option String
  deriving DecidableEq, Repr

namespace Reading

/-- Adds what one statement says. `content` is the trimmed line, for failures. -/
def addStatement (policy : VertexPolicy) (reading : Reading) (line : Nat) (content : String) :
    Statement → Except Failure Reading
  | .other => .ok reading
  | .vertex position =>
    let mesh := reading.mesh
    .ok { reading with mesh := { mesh with vertices := mesh.vertices.push position } }
  | .malformedVertex fault =>
    match policy with
    | .fail => .error (.malformedLine reading.mesh.path line content fault)
    | .skip =>
      let mesh := reading.mesh
      .ok { reading with mesh := { mesh with skippedVertices := mesh.skippedVertices + 1 } }
  | .face references =>
    let mesh := reading.mesh
    if references.length < 3 then
      .ok { reading with mesh := { mesh with skippedFaces := mesh.skippedFaces + 1 } }
    else
      let face : Face :=
        ⟨references.map (absoluteIndex mesh.vertices.size), reading.material, line⟩
      .ok { reading with mesh := { mesh with faces := mesh.faces.push face } }
  | .material name => .ok { reading with material := some name }
  | .malformed fault => .error (.malformedLine reading.mesh.path line content fault)

def add (policy : VertexPolicy) (reading : Reading) (line : List UInt8 × Nat) :
    Except Failure Reading :=
  match String.fromUTF8? line.1.toByteArray with
  | none => .error (.file reading.mesh.path .invalidUtf8)
  | some text =>
    let content := Text.trim text.toList
    reading.addStatement policy line.2 (String.ofList content) (Statement.ofLine content)

end Reading

namespace Mesh

def numberedLines (bytes : List UInt8) : List (List UInt8 × Nat) :=
  (bytes.splitOn '\n'.toUInt8).zipIdx 1

def ofBytes (policy : VertexPolicy) (path : Path) (bytes : List UInt8) : Except Failure Mesh := do
  let reading ← (numberedLines bytes).foldlM (Reading.add policy) ⟨Mesh.empty path, none⟩
  return reading.mesh

def load (fs : FileSystem) (policy : VertexPolicy) (path : Path) : Except Failure Mesh := do
  let content ← (fs.read path).mapError (Failure.ofSystem path)
  ofBytes policy path content.data.toList

end Mesh

end CollisionMesh
