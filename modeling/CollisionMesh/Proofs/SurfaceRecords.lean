import CollisionMesh.Conversion
import CollisionMesh.Proofs.Identifiers
import CollisionMesh.Proofs.Triangulation

/-!
# The records of a mesh

A mesh becomes one record for each place of its fans, in the order of faces. What stands in
the record at a place is said here for each field alone: its corners by component, its names
by the material of the face.
-/

namespace CollisionMesh

set_option autoImplicit false

namespace Options

def scaledComponent (options : Options) (p : Point Binary64) (axis : Axis) : Binary64 :=
  ((options.axisMap.apply p).get axis).mul options.scale

/-- The components of a point in the axes and the scale of the grid, in axis order. -/
def scaledComponents (options : Options) (p : Point Binary64) : List Binary64 :=
  [Axis.x, Axis.y, Axis.z].map (options.scaledComponent p)

/-- The grid point of a vertex: the whole parts of its scaled components, held to the limits. -/
def gridPoint (options : Options) (p : Point Binary64) : Point Int :=
  Point.ofFn fun axis =>
    max (-gridLimit) (min gridLimit (options.scaledComponent p axis).wholePart)

/-- The identifier that a tag gives, unless there is none or it is blank. -/
def tagName? (options : Options) : Option String → Option String
  | none => none
  | some name =>
    if name.toList.all Text.isBlank then none
    else some (Identifier.ofMaterial options.materialLead name)

def surfaceName (options : Options) (tag : Option String) : String :=
  if options.materialUse = .surface then (options.tagName? tag).getD options.defaultSurface
  else options.defaultSurface

def terrainName (options : Options) (tag : Option String) : String :=
  if options.materialUse = .terrain then (options.tagName? tag).getD options.defaultTerrain
  else options.defaultTerrain

end Options

/-- Whether the whole part of a number is beyond the limits of the grid. -/
def Binary64.beyondGrid (x : Binary64) : Bool :=
  decide (x.wholePart < -gridLimit ∨ gridLimit < x.wholePart)

theorem Binary64.toGrid_snd (x : Binary64) : x.toGrid.2 = x.beyondGrid := by
  rw [Bool.eq_iff_iff]
  simp only [toGrid, beyondGrid, bne_iff_ne, decide_eq_true_eq]
  unfold gridLimit
  omega

theorem Options.toGrid_scalePoint (options : Options) (p : Point Binary64) :
    (options.scalePoint p).toGrid = options.gridPoint p := by
  apply Point.ext_get
  intro axis
  simp [Point.toGrid, scalePoint, gridPoint, scaledComponent, Binary64.toGrid]

namespace SurfaceRecord

theorem material?_eq_tagName? (options : Options) (tag : Option String) :
    material? options tag = options.tagName? tag := by
  cases tag with
  | none => rfl
  | some name =>
    have hempty := Identifier.ofMaterial_eq_empty_iff options.materialLead name
    simp only [material?, Option.map_some, Option.filter_some, Options.tagName?]
    by_cases hblank : ∀ c ∈ name.toList, Text.isBlank c = true
    · simp [hempty.mpr hblank, List.all_eq_true.mpr hblank]
    · have hne : Identifier.ofMaterial options.materialLead name ≠ "" :=
        fun h => hblank (hempty.mp h)
      have hall : name.toList.all Text.isBlank = false := by
        rw [Bool.eq_false_iff]
        exact fun h => hblank (List.all_eq_true.mp h)
      simp [hne, hall]

theorem surface_ofTriangle (options : Options) (triangle : Triangle Int) :
    (ofTriangle options triangle).surface = options.surfaceName triangle.tag := by
  simp only [ofTriangle, material?_eq_tagName?, Options.surfaceName]
  cases options.materialUse <;> cases options.tagName? triangle.tag <;> rfl

theorem terrain_ofTriangle (options : Options) (triangle : Triangle Int) :
    (ofTriangle options triangle).terrain = options.terrainName triangle.tag := by
  simp only [ofTriangle, material?_eq_tagName?, Options.terrainName]
  cases options.materialUse <;> cases options.tagName? triangle.tag <;> rfl

theorem force_ofTriangle (options : Options) (triangle : Triangle Int) :
    (ofTriangle options triangle).force = 0 := by
  rfl

end SurfaceRecord

theorem Triangle.toList_corners_toGrid (options : Options) (triangle : Triangle Binary64) :
    (triangle.toGrid options).corners.toList = triangle.corners.toList.map options.gridPoint := by
  simp [Triangle.toGrid, Triangle.scaledCorners, Corners.toGrid, Options.toGrid_scalePoint]

theorem clampedCount_scaledCorners (options : Options) (triangles : List (Triangle Binary64)) :
    clampedCount (triangles.map fun t => t.scaledCorners options) =
      ((triangles.flatMap fun t => t.corners.toList).flatMap options.scaledComponents).countP
        Binary64.beyondGrid := by
  have hsnd : (fun x : Binary64 => x.toGrid.2) = Binary64.beyondGrid :=
    funext Binary64.toGrid_snd
  rw [clampedCount, hsnd, List.flatMap_map, List.flatMap_assoc]
  rfl

/-- Triangles of which as many components are clamped, one by one, have as many clamped together. -/
theorem clampedCount_map_congr {α : Type} {f g : α → Corners Binary64} {ts : List α}
    (h : ∀ t, (f t).components.countP (fun x => x.toGrid.2) =
      (g t).components.countP fun x => x.toGrid.2) :
    clampedCount (ts.map f) = clampedCount (ts.map g) := by
  simp only [clampedCount, List.flatMap_map, List.countP_flatMap, Function.comp_def, h]

namespace Mesh

theorem surfaceRecords_of_triangulate_error {mesh : Mesh} (options : Options) {failure : Failure}
    (h : mesh.triangulate = .error failure) : mesh.surfaceRecords options = .error failure := by
  rw [surfaceRecords, h]
  rfl

theorem surfaceRecords_of_triangulate_nil {mesh : Mesh} (options : Options)
    (h : mesh.triangulate = .ok []) :
    mesh.surfaceRecords options = .error (.noFaces mesh.path) := by
  rw [surfaceRecords, h]
  rfl

theorem surfaceRecords_of_triangulate {mesh : Mesh} (options : Options)
    {triangles : List (Triangle Binary64)} (h : mesh.triangulate = .ok triangles)
    (hne : triangles ≠ []) :
    mesh.surfaceRecords options =
      .ok (triangles.map fun t => SurfaceRecord.ofTriangle options (t.toGrid options),
        clampedCount (triangles.map fun t => t.scaledCorners options)) := by
  have hempty : triangles.isEmpty = false := by simpa using hne
  rw [surfaceRecords, h]
  change (if triangles.isEmpty = true then _ else _) = _
  rw [hempty]
  rfl

/-- The record list field by field, and the count of clamped components, for
the triangles of a mesh. -/
theorem fields_of_triangulate {mesh : Mesh} (options : Options)
    {triangles : List (Triangle Binary64)} (h : mesh.triangulate = .ok triangles) :
    let records := triangles.map fun t => SurfaceRecord.ofTriangle options (t.toGrid options)
    records.map (fun record => record.corners.toList) =
        mesh.fanPlaces.map (fun place => (mesh.placeVertices place).map options.gridPoint) ∧
      records.map SurfaceRecord.surface =
        mesh.fanPlaces.map (fun place => options.surfaceName place.1.tag) ∧
      records.map SurfaceRecord.terrain =
        mesh.fanPlaces.map (fun place => options.terrainName place.1.tag) ∧
      clampedCount (triangles.map fun t => t.scaledCorners options) =
        ((mesh.fanPlaces.flatMap mesh.placeVertices).flatMap options.scaledComponents).countP
          Binary64.beyondGrid := by
  have hplaces := map_triangulate h
  have hcorners := congrArg (List.map Prod.fst) hplaces
  have htags := congrArg (List.map Prod.snd) hplaces
  simp only [List.map_map] at hcorners htags
  refine ⟨?_, ?_, ?_, ?_⟩
  · have hgrid := congrArg (List.map (List.map options.gridPoint)) hcorners
    simp only [List.map_map] at hgrid ⊢
    exact Eq.trans (List.map_congr_left fun t _ => t.toList_corners_toGrid options) hgrid
  · have hnames := congrArg (List.map options.surfaceName) htags
    simp only [List.map_map] at hnames ⊢
    exact Eq.trans
      (List.map_congr_left fun t _ => SurfaceRecord.surface_ofTriangle options _) hnames
  · have hnames := congrArg (List.map options.terrainName) htags
    simp only [List.map_map] at hnames ⊢
    exact Eq.trans
      (List.map_congr_left fun t _ => SurfaceRecord.terrain_ofTriangle options _) hnames
  · have hflat := congrArg List.flatten hcorners
    simp only [← List.flatMap_def] at hflat
    rw [clampedCount_scaledCorners]
    exact congrArg (fun vs => (List.flatMap options.scaledComponents vs).countP _) hflat

theorem surfaceRecords_of_firstDangling? {mesh : Mesh} (options : Options) {line : Nat}
    {index : Int64} (h : mesh.firstDangling? = some (line, index)) :
    mesh.surfaceRecords options =
      .error (.vertexOutOfRange mesh.path line index mesh.vertices.size) := by
  apply surfaceRecords_of_triangulate_error
  rw [← failure?_eq_some_iff, failure?_triangulate, h]
  rfl

theorem exists_triangulate {mesh : Mesh}
    (h : ∀ face ∈ mesh.faces, ∀ index ∈ face.indices, mesh.InRange index) :
    ∃ triangles, mesh.triangulate = .ok triangles := by
  rw [← failure?_eq_none_iff, failure?_triangulate, mesh.firstDangling?_eq_none_iff.mpr h]
  rfl

/-- A mesh without triangle is refused, and the records of any other are there. -/
theorem surfaceRecords_of_inRange {mesh : Mesh} (options : Options)
    (h : ∀ face ∈ mesh.faces, ∀ index ∈ face.indices, mesh.InRange index) :
    (mesh.surfaceRecords options = .error (.noFaces mesh.path) ∧ mesh.fanPlaces = []) ∨
      (∃ triangles, mesh.triangulate = .ok triangles ∧ mesh.fanPlaces ≠ [] ∧
        mesh.surfaceRecords options =
          .ok (triangles.map fun t => SurfaceRecord.ofTriangle options (t.toGrid options),
            clampedCount (triangles.map fun t => t.scaledCorners options))) := by
  obtain ⟨triangles, htriangles⟩ := exists_triangulate h
  have hlength := congrArg List.length (map_triangulate htriangles)
  rw [List.length_map, List.length_map] at hlength
  by_cases hnil : triangles = []
  · subst hnil
    exact .inl ⟨surfaceRecords_of_triangulate_nil options htriangles,
      List.length_eq_zero_iff.mp hlength.symm⟩
  · refine .inr ⟨triangles, htriangles, ?_, surfaceRecords_of_triangulate options htriangles hnil⟩
    exact fun hplaces => hnil (List.length_eq_zero_iff.mp (by rw [hlength, hplaces]; rfl))

/-- Everything that the records of a mesh are. A reference without vertex is the failure, the first
one in file order; else a mesh without triangle is; else there is one record for each place of the
fans, and its corners are counted as clamped component by component. -/
theorem surfaceRecords_eq_places (mesh : Mesh) (options : Options) :
    ((∃ path line index count,
        mesh.surfaceRecords options = .error (.vertexOutOfRange path line index count)) ↔
      ∃ face ∈ mesh.faces, ∃ index ∈ face.indices, ¬mesh.InRange index) ∧
    (∀ line index, mesh.firstDangling? = some (line, index) →
      mesh.surfaceRecords options =
        .error (.vertexOutOfRange mesh.path line index mesh.vertices.size)) ∧
    ((∀ face ∈ mesh.faces, ∀ index ∈ face.indices, mesh.InRange index) →
      (mesh.surfaceRecords options = .error (.noFaces mesh.path) ↔
        ∀ face ∈ mesh.faces, face.indices.length < 3) ∧
      ((∃ face ∈ mesh.faces, 3 ≤ face.indices.length) →
        ∃ records clamped, mesh.surfaceRecords options = .ok (records, clamped) ∧
          records.map (fun record => record.corners.toList) =
            mesh.fanPlaces.map (fun place => (mesh.placeVertices place).map options.gridPoint) ∧
          records.map SurfaceRecord.surface =
            mesh.fanPlaces.map (fun place => options.surfaceName place.1.tag) ∧
          records.map SurfaceRecord.terrain =
            mesh.fanPlaces.map (fun place => options.terrainName place.1.tag) ∧
          (∀ record ∈ records, record.force = 0) ∧
          records.length = (mesh.faces.toList.map fun face => face.indices.length - 2).sum ∧
          clamped =
            ((mesh.fanPlaces.flatMap mesh.placeVertices).flatMap options.scaledComponents).countP
              Binary64.beyondGrid)) := by
  cases hdangling : mesh.firstDangling? with
  | some reference =>
    obtain ⟨line, index⟩ := reference
    have herror := surfaceRecords_of_firstDangling? options hdangling
    have hout : ¬∀ face ∈ mesh.faces, ∀ index ∈ face.indices, mesh.InRange index := by
      intro h
      rw [mesh.firstDangling?_eq_none_iff.mpr h] at hdangling
      cases hdangling
    refine ⟨⟨fun _ => ?_, fun _ => ⟨_, _, _, _, herror⟩⟩, ?_, fun h => absurd h hout⟩
    · push Not at hout
      exact hout
    · rintro _ _ ⟨⟩
      exact herror
  | none =>
    have hin := mesh.firstDangling?_eq_none_iff.mp hdangling
    have hnone : ¬∃ face ∈ mesh.faces, ∃ index ∈ face.indices, ¬mesh.InRange index := by
      rintro ⟨face, hface, index, hindex, hout⟩
      exact hout (hin face hface index hindex)
    rcases surfaceRecords_of_inRange options hin with
      ⟨hrecords, hplaces⟩ | ⟨triangles, htriangles, hplaces, hrecords⟩
    · have hsmall := mesh.fanPlaces_eq_nil_iff.mp hplaces
      refine ⟨⟨?_, fun h => absurd h hnone⟩, by simp, fun _ => ⟨iff_of_true hrecords hsmall, ?_⟩⟩
      · rintro ⟨_, _, _, _, h⟩
        rw [hrecords] at h
        cases h
      · rintro ⟨face, hface, hlarge⟩
        exact absurd (hsmall face hface) (by omega)
    · have hlarge := mt mesh.fanPlaces_eq_nil_iff.mpr hplaces
      obtain ⟨hcorners, hsurface, hterrain, hclamped⟩ := fields_of_triangulate options htriangles
      refine ⟨⟨?_, fun h => absurd h hnone⟩, by simp, fun _ => ⟨?_, fun _ => ?_⟩⟩
      · rintro ⟨_, _, _, _, h⟩
        rw [hrecords] at h
        cases h
      · simp only [hrecords, reduceCtorEq, false_iff]
        exact hlarge
      · refine ⟨_, _, hrecords, hcorners, hsurface, hterrain, ?_, ?_, hclamped⟩
        · intro record hrecord
          obtain ⟨t, _, rfl⟩ := List.mem_map.mp hrecord
          exact SurfaceRecord.force_ofTriangle options _
        · have hlength := congrArg List.length hsurface
          simpa only [List.length_map, length_fanPlaces] using hlength

end Mesh

end CollisionMesh
