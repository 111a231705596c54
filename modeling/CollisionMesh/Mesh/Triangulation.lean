import CollisionMesh.Mesh

/-!
# Triangulation

A face is cut into the fan of triangles at its first vertex, in winding order. Faces with fewer
than three vertices have no triangle. The first index without vertex, in the first face that
has one, is the failure.
-/

namespace CollisionMesh

set_option autoImplicit false

/-- The fan at the first element: that element with each pair of neighbours after it. -/
def fan {α : Type} : List α → List (α × α × α)
  | [] => []
  | anchor :: rest => (rest.zip rest.tail).map fun edge => (anchor, edge.1, edge.2)

namespace Mesh

def resolve (mesh : Mesh) (face : Face) (index : Int64) : Except Failure (Point Binary64) :=
  match mesh.vertex? index with
  | some position => .ok position
  | none => .error (.vertexOutOfRange mesh.path face.line index mesh.vertices.size)

def triangulateFace (mesh : Mesh) (face : Face) : Except Failure (List (Triangle Binary64)) := do
  let corners ← face.indices.mapM (mesh.resolve face)
  return (fan corners).map fun corner => ⟨⟨corner.1, corner.2.1, corner.2.2⟩, face.tag⟩

def triangulate (mesh : Mesh) : Except Failure (List (Triangle Binary64)) := do
  let parts ← mesh.faces.toList.mapM mesh.triangulateFace
  return parts.flatten

end Mesh

@[simp] theorem length_fan {α : Type} (vertices : List α) :
    (fan vertices).length = vertices.length - 2 := by
  cases vertices with
  | nil => rfl
  | cons anchor rest =>
    simp only [fan, List.length_map, List.length_zip, List.length_tail, List.length_cons]
    omega

end CollisionMesh
