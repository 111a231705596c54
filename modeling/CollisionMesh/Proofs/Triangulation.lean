import CollisionMesh.Mesh.Triangulation
import CollisionMesh.Proofs.Traversal
import Mathlib.Algebra.GroupWithZero.Nat

/-!
# References and fans

`references` lists what the faces of a mesh refer to, in file order, and `fanPlaces` the triangles
that the faces are to be cut into, as places: the triangle at place `(face, i)` has the corners
number 0, `i` and `i + 1` of that face. Triangulation fails at the first reference without vertex,
and otherwise yields one triangle for each place.
-/

namespace CollisionMesh

set_option autoImplicit false

namespace Mesh

/-- Whether an index is the number of a vertex. -/
def InRange (mesh : Mesh) (index : Int64) : Prop :=
  1 ≤ index.toInt ∧ index.toInt ≤ mesh.vertices.size

instance (mesh : Mesh) (index : Int64) : Decidable (mesh.InRange index) :=
  inferInstanceAs (Decidable (_ ∧ _))

/-- The references of all faces, each with the line of its face. -/
def references (mesh : Mesh) : List (Nat × Int64) :=
  mesh.faces.toList.flatMap fun face => face.indices.map fun index => (face.line, index)

/-- The first reference that is out of range. -/
def firstDangling? (mesh : Mesh) : Option (Nat × Int64) :=
  mesh.references.find? fun reference => !decide (mesh.InRange reference.2)

/-- The places of the triangles of a mesh, face by face. -/
def fanPlaces (mesh : Mesh) : List (Face × Nat) :=
  mesh.faces.toList.flatMap fun face =>
    (List.range (face.indices.length - 2)).map fun i => (face, i + 1)

/-- The vertex at a corner of a face, corners counted from 0. -/
def cornerVertex? (mesh : Mesh) (face : Face) (corner : Nat) : Option (Point Binary64) :=
  face.indices[corner]?.bind fun index => mesh.vertices[index.toInt.toNat - 1]?

/-- The vertices of the triangle at a place, in winding order. -/
def placeVertices (mesh : Mesh) (place : Face × Nat) : List (Point Binary64) :=
  [0, place.2, place.2 + 1].filterMap (mesh.cornerVertex? place.1)

theorem mem_references_iff (mesh : Mesh) (reference : Nat × Int64) :
    reference ∈ mesh.references ↔
      ∃ face ∈ mesh.faces, ∃ index ∈ face.indices, (face.line, index) = reference := by
  simp [references]

theorem vertex?_isSome_iff (mesh : Mesh) (index : Int64) :
    (mesh.vertex? index).isSome = true ↔ mesh.InRange index := by
  unfold vertex? InRange
  split
  · rw [isSome_getElem?]
    omega
  · simp only [Option.isSome_none, Bool.false_eq_true, false_iff]
    omega

theorem vertex?_eq_some_iff {mesh : Mesh} {index : Int64} {position : Point Binary64} :
    mesh.vertex? index = some position ↔
      1 ≤ index.toInt ∧ mesh.vertices[index.toInt.toNat - 1]? = some position := by
  unfold vertex?
  split
  · rename_i hpos
    exact (and_iff_right hpos).symm
  · rename_i hpos
    exact iff_of_false nofun fun h => hpos h.1

theorem resolve_eq_ok_iff {mesh : Mesh} {face : Face} {index : Int64} {position : Point Binary64} :
    mesh.resolve face index = .ok position ↔ mesh.vertex? index = some position := by
  unfold resolve
  cases mesh.vertex? index <;> simp

theorem failure?_resolve (mesh : Mesh) (face : Face) (index : Int64) :
    failure? (mesh.resolve face index) =
      if mesh.InRange index then none
      else some (.vertexOutOfRange mesh.path face.line index mesh.vertices.size) := by
  have hiff := mesh.vertex?_isSome_iff index
  unfold resolve
  cases hv : mesh.vertex? index with
  | some position =>
    have hin : mesh.InRange index := hiff.mp (by simp [hv])
    simp [hin]
  | none =>
    have hout : ¬mesh.InRange index := fun hin => by simpa [hv] using hiff.mpr hin
    simp [hout]

theorem failure?_triangulateFace (mesh : Mesh) (face : Face) :
    failure? (mesh.triangulateFace face) =
      (face.indices.find? fun index => !decide (mesh.InRange index)).map fun index =>
        .vertexOutOfRange mesh.path face.line index mesh.vertices.size := by
  have hmapM : failure? (mesh.triangulateFace face) =
      failure? (face.indices.mapM (mesh.resolve face)) := by
    unfold triangulateFace
    cases face.indices.mapM (mesh.resolve face) <;> rfl
  rw [hmapM, failure?_mapM]
  induction face.indices with
  | nil => rfl
  | cons index rest ih =>
    rw [List.findSome?_cons, List.find?_cons, failure?_resolve]
    by_cases hin : mesh.InRange index
    · simpa [hin] using ih
    · simp [hin]

/-- The failure of triangulation is the first reference without vertex. -/
theorem failure?_triangulate (mesh : Mesh) :
    failure? mesh.triangulate =
      mesh.firstDangling?.map fun reference =>
        .vertexOutOfRange mesh.path reference.1 reference.2 mesh.vertices.size := by
  have hmapM : failure? mesh.triangulate =
      failure? (mesh.faces.toList.mapM mesh.triangulateFace) := by
    unfold triangulate
    cases mesh.faces.toList.mapM mesh.triangulateFace <;> rfl
  rw [hmapM, failure?_mapM, firstDangling?, references, List.find?_flatMap, List.map_findSome?]
  congr 1
  funext face
  rw [failure?_triangulateFace, Function.comp_apply, List.find?_map, Option.map_map]
  rfl

theorem firstDangling?_eq_none_iff (mesh : Mesh) :
    mesh.firstDangling? = none ↔
      ∀ face ∈ mesh.faces, ∀ index ∈ face.indices, mesh.InRange index := by
  rw [firstDangling?, List.find?_eq_none]
  simp only [mem_references_iff, Bool.not_eq_true, Bool.not_eq_false', decide_eq_true_eq]
  constructor
  · exact fun h face hface index hindex => h (face.line, index) ⟨face, hface, index, hindex, rfl⟩
  · rintro h _ ⟨face, hface, index, hindex, rfl⟩
    exact h face hface index hindex

theorem cornerVertex?_of_mapM_resolve {mesh : Mesh} {face : Face} {corners : List (Point Binary64)}
    (h : face.indices.mapM (mesh.resolve face) = .ok corners) (corner : Nat) :
    mesh.cornerVertex? face corner = corners[corner]? := by
  obtain ⟨hlength, hget⟩ := List.forall₂_iff_get.mp ((mapM_ok_iff _ _ _).mp h)
  unfold cornerVertex?
  by_cases hcorner : corner < face.indices.length
  · have hcorner' : corner < corners.length := by omega
    rw [List.getElem?_eq_getElem hcorner, List.getElem?_eq_getElem hcorner', Option.bind_some]
    exact (vertex?_eq_some_iff.mp (resolve_eq_ok_iff.mp (hget corner hcorner hcorner'))).2
  · rw [List.getElem?_eq_none (by omega), List.getElem?_eq_none (by omega), Option.bind_none]

end Mesh

/-- The fan by places: its triangle number `i` has the elements number 0, `i + 1` and `i + 2`. -/
theorem map_fan_eq {α : Type} (vertices : List α) :
    (fan vertices).map (fun corner => [corner.1, corner.2.1, corner.2.2]) =
      (List.range (vertices.length - 2)).map fun i =>
        [0, i + 1, i + 2].filterMap fun k => vertices[k]? := by
  apply List.ext_getElem
  · simp
  intro i hi _
  rw [List.length_map, length_fan] at hi
  cases vertices with
  | nil => simp at hi
  | cons anchor rest =>
    rw [List.length_cons] at hi
    have h1 : i < rest.length := by omega
    have h2 : i + 1 < rest.length := by omega
    simp [fan, List.getElem?_eq_getElem h1, List.getElem?_eq_getElem h2]

namespace Mesh

theorem map_triangulateFace {mesh : Mesh} {face : Face} {triangles : List (Triangle Binary64)}
    (h : mesh.triangulateFace face = .ok triangles) :
    triangles.map (fun t => (t.corners.toList, t.tag)) =
      (List.range (face.indices.length - 2)).map fun i =>
        (mesh.placeVertices (face, i + 1), face.tag) := by
  obtain ⟨corners, hcorners, htriangles⟩ := (bind_eq_ok_iff _ _ _).mp h
  cases htriangles
  have hlength : face.indices.length = corners.length :=
    ((mapM_ok_iff _ _ _).mp hcorners).length_eq
  have hvertices (i : Nat) : mesh.placeVertices (face, i + 1) =
      [0, i + 1, i + 2].filterMap fun k => corners[k]? := by
    unfold placeVertices
    congr 1
    funext corner
    exact cornerVertex?_of_mapM_resolve hcorners corner
  have hfan := congrArg (List.map fun vertices => (vertices, face.tag)) (map_fan_eq corners)
  simp only [List.map_map] at hfan
  simp only [hvertices, hlength, List.map_map]
  exact hfan

/-- One triangle for each place, with the vertices of that place and the material of its face. -/
theorem map_triangulate {mesh : Mesh} {triangles : List (Triangle Binary64)}
    (h : mesh.triangulate = .ok triangles) :
    triangles.map (fun t => (t.corners.toList, t.tag)) =
      mesh.fanPlaces.map fun place => (mesh.placeVertices place, place.1.tag) := by
  obtain ⟨parts, hparts, htriangles⟩ := (bind_eq_ok_iff _ _ _).mp h
  cases htriangles
  have hforall := (mapM_ok_iff _ _ _).mp hparts
  unfold fanPlaces
  generalize mesh.faces.toList = faces at hforall
  clear h hparts
  induction hforall with
  | nil => rfl
  | cons hface _ ih =>
    rw [List.flatten_cons, List.map_append, ih, List.flatMap_cons, List.map_append,
      map_triangulateFace hface, List.map_map]
    rfl

theorem length_fanPlaces (mesh : Mesh) :
    mesh.fanPlaces.length = (mesh.faces.toList.map fun face => face.indices.length - 2).sum := by
  simp [fanPlaces, List.length_flatMap]

theorem fanPlaces_eq_nil_iff (mesh : Mesh) :
    mesh.fanPlaces = [] ↔ ∀ face ∈ mesh.faces, face.indices.length < 3 := by
  simp only [fanPlaces, List.flatMap_eq_nil_iff, List.map_eq_nil_iff, List.range_eq_nil,
    Array.mem_toList_iff]
  constructor <;> intro h face hface <;> have := h face hface <;> omega

end Mesh

end CollisionMesh
