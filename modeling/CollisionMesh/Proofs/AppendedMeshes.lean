import CollisionMesh.Proofs.MeshReading
import CollisionMesh.Proofs.SurfaceRecords
import Mathlib.Data.List.Induction

/-!
# Meshes one behind the other

A file of relative references can be put behind any other file. It declares there what it declares
alone, at indices moved by the vertices before it; and each face is cut into the triangles that it
has alone. Only the material in force could be carried over from the first file into the second one.
-/

namespace CollisionMesh

set_option autoImplicit false

/-- A face as it is declared behind so many vertices and lines, with a material in force. -/
def Face.behind (vertices lines : Nat) (material : Option String) (face : Face) : Face :=
  ⟨face.indices.map (Int64.ofNat vertices + ·), face.tag.or material, face.line + lines⟩

namespace Mesh

/-- A line with so many lines before its file. -/
def Line.behind (lines : Nat) (line : Line) : Line := (line.1, line.2 + lines)

/-- Whether every reference on these lines counts back from the vertices before it. -/
def HasRelativeFaces (lines : List Line) : Prop :=
  ∀ line ∈ lines, ∀ tokens ∈ line.faceTokens?, ∀ token ∈ tokens,
    ∀ reference ∈ leadingInteger? token, reference.toInt < 0

instance (lines : List Line) : Decidable (HasRelativeFaces lines) :=
  decidable_of_iff
    (lines.all fun line => line.faceTokens?.all fun tokens => tokens.all fun token =>
      (leadingInteger? token).all fun reference => decide (reference.toInt < 0)) (by
    simp only [HasRelativeFaces, List.all_eq_true, Option.all_eq_true, decide_eq_true_eq]
    rfl)

/-- Whether no face is declared before the first material line. -/
def HasNamedFaces (lines : List Line) : Prop :=
  ∀ before line after, lines = before ++ line :: after → declaredFace? before line ≠ none →
    ∃ earlier ∈ before, earlier.material? ≠ none

section Lines

variable {first : List UInt8}

theorem exists_splitOn_of_ended (h : first = [] ∨ first.getLast? = some '\n'.toUInt8) :
    ∃ lines, first.splitOn '\n'.toUInt8 = lines ++ [[]] ∧
      ∀ second, (first ++ second).splitOn '\n'.toUInt8 = lines ++ second.splitOn '\n'.toUInt8 := by
  rcases h with rfl | hlast
  · exact ⟨[], List.splitOn_nil _, fun second => rfl⟩
  · obtain ⟨text, rfl⟩ := List.getLast?_eq_some_iff.mp hlast
    refine ⟨text.splitOn '\n'.toUInt8, ?_, fun second => ?_⟩
    · rw [List.splitOn_append_cons_self, List.splitOn_nil]
    · rw [List.append_assoc, List.singleton_append, List.splitOn_append_cons_self]

/-- The lines of a file behind another one, which ends with an empty line
behind its last line feed. -/
theorem exists_numberedLines_of_ended (h : first = [] ∨ first.getLast? = some '\n'.toUInt8) :
    ∃ lines, numberedLines first = lines ++ [([], lines.length + 1)] ∧
      ∀ second, numberedLines (first ++ second) =
        lines ++ (numberedLines second).map (Line.behind lines.length) := by
  obtain ⟨lines, hfirst, hboth⟩ := exists_splitOn_of_ended h
  refine ⟨lines.zipIdx 1, ?_, fun second => ?_⟩
  · rw [numberedLines, hfirst, List.zipIdx_append, List.length_zipIdx, Nat.add_comm]
    rfl
  · rw [numberedLines, hboth, List.zipIdx_append, List.length_zipIdx, Nat.add_comm 1,
      ← List.map_snd_add_zipIdx_eq_zipIdx]
    rfl

end Lines

section Declarations

theorem declaredVertices_behind (count : Nat) (lines : List Line) :
    declaredVertices (lines.map (Line.behind count)) = declaredVertices lines := by
  rw [declaredVertices, List.filterMap_map]
  rfl

theorem materialInForce_behind (count : Nat) (lines : List Line) :
    materialInForce (lines.map (Line.behind count)) = materialInForce lines := by
  rw [materialInForce, List.filterMap_map]
  rfl

theorem materialInForce_eq_none_iff (lines : List Line) :
    materialInForce lines = none ↔ ∀ line ∈ lines, line.material? = none := by
  rw [materialInForce, List.getLast?_eq_none_iff, List.filterMap_eq_nil_iff]

/-- A relative reference moves with the vertices before it. -/
theorem declaredIndex_add (count more : Nat) {reference : Int64} (h : reference.toInt < 0) :
    declaredIndex (count + more) reference = Int64.ofNat count + declaredIndex more reference := by
  have hneg : ¬0 ≤ reference.toInt := by omega
  have hsum : ((count + more : Nat) : Int) + reference.toInt + 1 =
      count + (more + reference.toInt + 1) := by
    omega
  rw [declaredIndex, declaredIndex, if_neg hneg, if_neg hneg, hsum, Int64.ofInt_add]
  rfl

theorem declaredFace?_behind (before lines : List Line) (count : Nat) {line : Line}
    (h : ∀ tokens ∈ line.faceTokens?, ∀ token ∈ tokens, ∀ reference ∈ leadingInteger? token,
      reference.toInt < 0) :
    declaredFace? (before ++ lines.map (Line.behind count)) (line.behind count) =
      (declaredFace? lines line).map
        (Face.behind (declaredVertices before).length count (materialInForce before)) := by
  have htokens : (line.behind count).faceTokens? = line.faceTokens? := rfl
  rw [declaredFace?, declaredFace?, htokens]
  cases hline : line.faceTokens? with
  | none => rfl
  | some tokens =>
    rw [Option.bind_some, Option.bind_some]
    by_cases h3 : 3 ≤ tokens.length
    · have hindices : (tokens.filterMap leadingInteger?).map
            (declaredIndex ((declaredVertices before).length + (declaredVertices lines).length)) =
          ((tokens.filterMap leadingInteger?).map
            (declaredIndex (declaredVertices lines).length)).map
            (Int64.ofNat (declaredVertices before).length + ·) := by
        rw [List.map_map]
        refine List.map_congr_left fun reference hreference => ?_
        obtain ⟨token, htoken, hread⟩ := List.mem_filterMap.mp hreference
        exact declaredIndex_add _ _ (h tokens hline token htoken reference hread)
      rw [if_pos h3, if_pos h3, declaredVertices_append, declaredVertices_behind,
        List.length_append, hindices, materialInForce_append, materialInForce_behind]
      rfl
    · rw [if_neg h3, if_neg h3]
      rfl

/-- Lines of relative references declare behind others the faces that they declare alone. -/
theorem declaredFaces_append (before lines : List Line) (count : Nat) (h : HasRelativeFaces lines) :
    declaredFaces (before ++ lines.map (Line.behind count)) =
      declaredFaces before ++ (declaredFaces lines).map
        (Face.behind (declaredVertices before).length count (materialInForce before)) := by
  -- a face depends on all lines before it, so lines are taken off at the end
  induction lines using List.reverseRecOn with
  | nil => simp [declaredFaces]
  | append_singleton lines line ih =>
    obtain ⟨hlines, hlast⟩ := List.forall_mem_append.mp h
    have hline := declaredFace?_behind before lines count (hlast line List.mem_cons_self)
    rw [List.map_append, List.map_singleton, ← List.append_assoc, declaredFaces_snoc,
      declaredFaces_snoc, ih hlines, hline, List.map_append, List.append_assoc]
    cases declaredFace? lines line <;> rfl

end Declarations

section Triangles

variable {mesh other : Mesh}

/-- A face has the same triangles in every mesh that has the same vertices at its indices. -/
theorem triangulateFace_of_indices {face moved : Face} {triangles : List (Triangle Binary64)}
    (shift : Int64 → Int64) (hindices : moved.indices = face.indices.map shift)
    (htag : moved.tag = face.tag)
    (hvertex : ∀ index position, mesh.vertex? index = some position →
      other.vertex? (shift index) = some position)
    (h : mesh.triangulateFace face = .ok triangles) :
    other.triangulateFace moved = .ok triangles := by
  obtain ⟨corners, hcorners, htriangles⟩ := (bind_eq_ok_iff _ _ _).mp h
  refine (bind_eq_ok_iff _ _ _).mpr ⟨corners, ?_, htag ▸ htriangles⟩
  rw [mapM_ok_iff] at hcorners ⊢
  rw [hindices, List.forall₂_map_left_iff]
  refine hcorners.imp fun index position hfound => ?_
  rw [resolve_eq_ok_iff] at hfound ⊢
  exact hvertex index position hfound

/-- What is declared later does not change the vertex at an index. -/
theorem vertex?_of_append {index : Int64} {position : Point Binary64}
    {more : Array (Point Binary64)} (hvertices : other.vertices = mesh.vertices ++ more)
    (h : mesh.vertex? index = some position) :
    other.vertex? index = some position := by
  rw [vertex?_eq_some_iff] at h ⊢
  obtain ⟨hpos, hfound⟩ := h
  obtain ⟨hlt, _⟩ := Array.getElem?_eq_some_iff.mp hfound
  rw [hvertices, Array.getElem?_append_left hlt]
  exact ⟨hpos, hfound⟩

/-- Behind other vertices a vertex is found at an index that is moved by their number. -/
theorem vertex?_of_behind {index : Int64} {position : Point Binary64}
    {earlier : Array (Point Binary64)} (hvertices : other.vertices = earlier ++ mesh.vertices)
    (hsize : other.vertices.size < 2 ^ 63) (h : mesh.vertex? index = some position) :
    other.vertex? (Int64.ofNat earlier.size + index) = some position := by
  rw [vertex?_eq_some_iff] at h ⊢
  obtain ⟨hpos, hfound⟩ := h
  obtain ⟨hlt, _⟩ := Array.getElem?_eq_some_iff.mp hfound
  rw [hvertices, Array.size_append] at hsize
  -- the index is that of a vertex, so the sum is at most their number and does not wrap
  have hmoved : (Int64.ofNat earlier.size + index).toInt = earlier.size + index.toInt := by
    rw [Int64.toInt_add, Int64.toInt_ofNat_of_lt (by omega),
      Int.bmod_eq_of_le (by omega) (by omega)]
  have hplace : (earlier.size + index.toInt).toNat - 1 - earlier.size =
      index.toInt.toNat - 1 := by omega
  rw [hmoved, hvertices, Array.getElem?_append_right (by omega), hplace]
  exact ⟨by omega, hfound⟩

theorem triangulate_append {first second both : Mesh} {triangles more : List (Triangle Binary64)}
    (lines : Nat) {material : Option String}
    (hvertices : both.vertices = first.vertices ++ second.vertices)
    (hsize : both.vertices.size < 2 ^ 63)
    (hfaces : both.faces.toList =
      first.faces.toList ++ second.faces.toList.map
        (Face.behind first.vertices.size lines material))
    (htags : ∀ face ∈ second.faces.toList, face.tag.or material = face.tag)
    (hfirst : first.triangulate = .ok triangles) (hsecond : second.triangulate = .ok more) :
    both.triangulate = .ok (triangles ++ more) := by
  obtain ⟨parts, hparts, htriangles⟩ := (bind_eq_ok_iff _ _ _).mp hfirst
  obtain ⟨moreParts, hmore, hmoreTriangles⟩ := (bind_eq_ok_iff _ _ _).mp hsecond
  refine (bind_eq_ok_iff _ _ _).mpr ⟨parts ++ moreParts, ?_, ?_⟩
  · rw [mapM_ok_iff] at hparts hmore ⊢
    rw [hfaces]
    refine List.rel_append ?_ ?_
    · exact hparts.imp fun face part hpart =>
        triangulateFace_of_indices id (List.map_id _).symm rfl
          (fun _ _ => vertex?_of_append hvertices) hpart
    · rw [List.forall₂_map_left_iff]
      refine ((List.forall₂_and_left _ _).mpr ⟨htags, hmore⟩).imp fun face part hpart => ?_
      exact triangulateFace_of_indices _ rfl hpart.1 (fun _ _ => vertex?_of_behind hvertices hsize)
        hpart.2
  · cases htriangles
    cases hmoreTriangles
    rw [List.flatten_append]
    rfl

theorem surfaceRecords_append {first second both : Mesh} {triangles more : List (Triangle Binary64)}
    {options : Options} {records moreRecords : List SurfaceRecord} {clamped moreClamped : Nat}
    (hfirst : first.triangulate = .ok triangles) (hsecond : second.triangulate = .ok more)
    (hboth : both.triangulate = .ok (triangles ++ more))
    (hrecords : first.surfaceRecords options = .ok (records, clamped))
    (hmore : second.surfaceRecords options = .ok (moreRecords, moreClamped)) :
    both.surfaceRecords options = .ok (records ++ moreRecords, clamped + moreClamped) := by
  have hne : triangles ≠ [] := by
    rintro rfl
    rw [surfaceRecords_of_triangulate_nil options hfirst] at hrecords
    cases hrecords
  have hmoreNe : more ≠ [] := by
    rintro rfl
    rw [surfaceRecords_of_triangulate_nil options hsecond] at hmore
    cases hmore
  have hbothNe : triangles ++ more ≠ [] := List.append_ne_nil_of_left_ne_nil hne more
  rw [surfaceRecords_of_triangulate options hfirst hne] at hrecords
  rw [surfaceRecords_of_triangulate options hsecond hmoreNe] at hmore
  cases hrecords
  cases hmore
  rw [surfaceRecords_of_triangulate options hboth hbothNe, List.map_append, List.map_append,
    clampedCount_append]

end Triangles

section Files

/-- Face lines behind others keep their material: it is named among them, or none was in force. -/
theorem tag_of_declaredFaces {before lines : List Line} {face : Face}
    (h : (∀ line ∈ before, line.material? = none) ∨ HasNamedFaces lines)
    (hface : face ∈ declaredFaces lines) :
    face.tag.or (materialInForce before) = face.tag := by
  rcases h with hnone | hnamed
  · rw [(materialInForce_eq_none_iff before).mpr hnone, Option.or_none]
  · obtain ⟨earlier, line, after, hsplit, hdeclared⟩ := mem_declaredFaces_iff.mp hface
    obtain ⟨named, hmem, hname⟩ := hnamed earlier line after hsplit (by rw [hdeclared]; exact nofun)
    have htag : face.tag = materialInForce earlier := by
      obtain ⟨tokens, _, hdeclared⟩ := Option.bind_eq_some_iff.mp hdeclared
      split at hdeclared
      · cases hdeclared
        rfl
      · cases hdeclared
    have hsome : materialInForce earlier ≠ none := fun hnone =>
      hname ((materialInForce_eq_none_iff earlier).mp hnone named hmem)
    obtain ⟨name, hname⟩ := Option.ne_none_iff_exists'.mp hsome
    rw [htag, hname, Option.some_or]

/-- An empty line at the end declares nothing. -/
theorem declared_snoc_empty (path : Path) (lines : List Line) (number : Nat) :
    declared path (lines ++ [([], number)]) = declared path lines := by
  have hreading := congrArg Reading.mesh (readingOf_snoc path lines ([], number))
  have hface : declaredFace? lines ([], number) = none := rfl
  have hvertex : Line.vertexFields? ([], number) = none := rfl
  have htokens : Line.faceTokens? ([], number) = none := rfl
  rw [hface, hvertex, htokens] at hreading
  simp only [Option.bind_none, Option.toList_none, List.append_nil] at hreading
  exact hreading

/-- What lines declare behind others: their own mesh behind that of the others. -/
theorem declared_append (path : Path) (before lines : List Line) (count : Nat)
    (h : HasRelativeFaces lines) :
    declared path (before ++ lines.map (Line.behind count)) =
      ⟨path, (declaredVertices before ++ declaredVertices lines).toArray,
        (declaredFaces before ++ (declaredFaces lines).map
          (Face.behind (declaredVertices before).length count (materialInForce before))).toArray,
        (declared path before).skippedFaces + (declared path lines).skippedFaces,
        (declared path before).skippedVertices + (declared path lines).skippedVertices⟩ := by
  simp only [declared, declaredVertices_append, declaredVertices_behind,
    declaredFaces_append _ _ _ h, List.countP_append, List.countP_map]
  rfl

variable {policy : VertexPolicy} {first second : List UInt8} {firstPath secondPath : Path}
  {firstMesh secondMesh : Mesh}

theorem ofBytes_append_eq_declared (hend : first = [] ∨ first.getLast? = some '\n'.toUInt8)
    (hfirst : ofBytes policy firstPath first = .ok firstMesh)
    (hsecond : ofBytes policy secondPath second = .ok secondMesh) (path : Path) :
    ∃ lines, firstMesh = declared firstPath lines ∧ (∀ line ∈ lines, line ∈ numberedLines first) ∧
      ofBytes policy path (first ++ second) =
        .ok (declared path (lines ++ (numberedLines second).map (Line.behind lines.length))) := by
  obtain ⟨lines, hlines, hboth⟩ := exists_numberedLines_of_ended hend
  have hmem : ∀ line ∈ lines, line ∈ numberedLines first := fun line hline =>
    hlines ▸ List.mem_append_left _ hline
  refine ⟨lines, ?_, hmem, ?_⟩
  · rw [eq_declared_of_ofBytes hfirst, hlines, declared_snoc_empty]
  · have hgood : ∀ line : Line, line ∈ numberedLines (first ++ second) → ¬line.Offends policy := by
      rw [hboth]
      refine List.forall_mem_append.mpr
        ⟨fun line hline => not_offends_of_ofBytes hfirst line (hmem line hline), ?_⟩
      intro line hline
      obtain ⟨alone, halone, rfl⟩ := List.mem_map.mp hline
      exact not_offends_of_ofBytes hsecond alone halone
    rw [(ofBytes_eq_declared policy path (first ++ second)).2.1 hgood, ← hboth]
    rfl

/-- A file of relative references behind a file that is ended: both meshes, one behind the other.
Every face has its triangles there, with the material that it has alone, as long as the vertices can
be counted in 64 bits. -/
theorem ofBytes_append {triangles more : List (Triangle Binary64)}
    (hend : first = [] ∨ first.getLast? = some '\n'.toUInt8)
    (hfirst : ofBytes policy firstPath first = .ok firstMesh)
    (hsecond : ofBytes policy secondPath second = .ok secondMesh)
    (htriangles : firstMesh.triangulate = .ok triangles) (hmore : secondMesh.triangulate = .ok more)
    (hrelative : HasRelativeFaces (numberedLines second))
    (hmaterial : (∀ line : Line, line ∈ numberedLines first → line.material? = none) ∨
      HasNamedFaces (numberedLines second)) (path : Path) :
    ∃ mesh, ofBytes policy path (first ++ second) = .ok mesh ∧
      mesh.vertices = firstMesh.vertices ++ secondMesh.vertices ∧
      mesh.skippedVertices = firstMesh.skippedVertices + secondMesh.skippedVertices ∧
      mesh.skippedFaces = firstMesh.skippedFaces + secondMesh.skippedFaces ∧
      (mesh.vertices.size < 2 ^ 63 →
        mesh.triangulate = .ok (triangles ++ more) ∧
        ∀ options records moreRecords clamped moreClamped,
          firstMesh.surfaceRecords options = .ok (records, clamped) →
          secondMesh.surfaceRecords options = .ok (moreRecords, moreClamped) →
          mesh.surfaceRecords options = .ok (records ++ moreRecords, clamped + moreClamped)) := by
  obtain ⟨lines, hfirstMesh, hmem, hboth⟩ := ofBytes_append_eq_declared hend hfirst hsecond path
  have hsecondMesh := eq_declared_of_ofBytes hsecond
  subst hfirstMesh hsecondMesh
  rw [declared_append path lines _ _ hrelative] at hboth
  refine ⟨_, hboth, (List.append_toArray _ _).symm, rfl, rfl, fun hsize => ?_⟩
  have htags : ∀ face ∈ declaredFaces (numberedLines second),
      face.tag.or (materialInForce lines) = face.tag :=
    fun face hface =>
      tag_of_declaredFaces (hmaterial.imp_left fun h line hline => h line (hmem line hline)) hface
  have hjoined :=
    triangulate_append lines.length (List.append_toArray _ _).symm hsize rfl htags htriangles hmore
  exact ⟨hjoined, fun options records moreRecords clamped moreClamped hrecords hmoreRecords =>
    surfaceRecords_append htriangles hmore hjoined hrecords hmoreRecords⟩

/-- A vertex and a face passed over in the first file, and a face before the last
vertex of the second one. -/
theorem ofBytes_append_sand :
    let first := "v 0 0 0\nv 1 0 x\nv 1 0 0\nv 0 1 0\nf 1 2\nf 1 2 3\n".toUTF8.data.toList
    let second :=
      "usemtl sand\nv 0 0 1\nv 1 0 1\nf -1 -2 -2\nv 0 1 1\nf -3//1 -2 -1".toUTF8.data.toList
    let summary := fun bytes => do
      let mesh ← ofBytes .skip ⟨"a.obj"⟩ bytes
      let triangles ← mesh.triangulate
      return (mesh.vertices.size, mesh.skippedVertices, mesh.skippedFaces,
        triangles.map Triangle.tag)
    summary first = .ok (3, 1, 1, [none]) ∧
      summary second = .ok (3, 0, 0, [some "sand", some "sand"]) ∧
      summary (first ++ second) = .ok (6, 1, 1, [none, some "sand", some "sand"]) := by
  intro first second summary
  have hfirst : summary first = .ok (3, 1, 1, [none]) := by decide +kernel
  have hsecond : summary second = .ok (3, 0, 0, [some "sand", some "sand"]) := by decide +kernel
  obtain ⟨firstMesh, hfirstMesh, hrest⟩ := (bind_eq_ok_iff _ _ _).mp hfirst
  obtain ⟨triangles, htriangles, hcounts⟩ := (bind_eq_ok_iff _ _ _).mp hrest
  obtain ⟨secondMesh, hsecondMesh, hrest⟩ := (bind_eq_ok_iff _ _ _).mp hsecond
  obtain ⟨more, hmore, hmoreCounts⟩ := (bind_eq_ok_iff _ _ _).mp hrest
  have hrelative : HasRelativeFaces (numberedLines second) := by decide +kernel
  obtain ⟨mesh, hmesh, hvertices, hskippedVertices, hskippedFaces, hjoined⟩ :=
    ofBytes_append (.inr (by decide +kernel)) hfirstMesh hsecondMesh htriangles hmore hrelative
      (.inl (by decide +kernel)) ⟨"a.obj"⟩
  simp only [pure, Except.pure, Except.ok.injEq, Prod.mk.injEq] at hcounts hmoreCounts
  have hsize : mesh.vertices.size = 6 := by
    rw [hvertices, Array.size_append, hcounts.1, hmoreCounts.1]
  have htriangulate := (hjoined (by omega)).1
  refine ⟨hfirst, hsecond, (bind_eq_ok_iff _ _ _).mpr
    ⟨mesh, hmesh, (bind_eq_ok_iff _ _ _).mpr ⟨_, htriangulate, ?_⟩⟩⟩
  rw [hsize, hskippedVertices, hskippedFaces, hcounts.2.1, hcounts.2.2.1, hmoreCounts.2.1,
    hmoreCounts.2.2.1, List.map_append, hcounts.2.2.2, hmoreCounts.2.2.2]
  rfl

end Files

end Mesh

end CollisionMesh
