import CollisionMesh.Failure

/-!
# Meshes

Vertices and polygonal faces as a mesh file declares them, in file order.
-/

namespace CollisionMesh

set_option autoImplicit false

/-- A polygon: vertices by number from 1 on, which may not be there, and the
place of its declaration. -/
structure Face where
  indices : List Int64
  /-- Material that was in force when the face was declared. -/
  tag : Option String
  /-- Line of the declaration, counted from 1. -/
  line : Nat
  deriving DecidableEq, Repr, Inhabited

/-- A mesh, and how many of its declarations were passed over. -/
structure Mesh where
  /-- Where the mesh comes from; only failures show it. -/
  path : Path
  vertices : Array (Point Binary64)
  faces : Array Face
  /-- Faces with fewer than three references. -/
  skippedFaces : Nat
  /-- Vertices that could not be read, where the policy is to skip them. -/
  skippedVertices : Nat
  deriving DecidableEq, Repr, Inhabited

def Mesh.empty (path : Path) : Mesh := ⟨path, #[], #[], 0, 0⟩

def Mesh.vertex? (mesh : Mesh) (index : Int64) : Option (Point Binary64) :=
  if 0 < index.toInt then mesh.vertices[index.toInt.toNat - 1]? else none

/-- The number of the vertex that a reference means when `count` vertices have been declared: a
negative reference counts back from the last of them, which is -1. -/
def absoluteIndex (count : Nat) (reference : Int64) : Int64 :=
  if reference < 0 then Int64.ofNat count + reference + 1 else reference

theorem absoluteIndex_of_nonneg {count : Nat} {reference : Int64} (h : ¬reference < 0) :
    absoluteIndex count reference = reference := by
  simp [absoluteIndex, h]

end CollisionMesh
