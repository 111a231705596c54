import CollisionMesh.Proofs.PathPieces
import CollisionMesh.Proofs.SavedTriangles
import CollisionMesh.Proofs.SourceLines
import CollisionMesh.Proofs.SurfaceRecords

/-!
# Two stages make one conversion

The direct conversion and the saving of triangles start alike, with `FileSystem.triangles`; what
follows are two maps of its outcome. A number that a list cannot keep has a stand-in at the same
place of the grid, beyond its limits if the number is. So the list that was saved gives the records
of the direct conversion.
-/

namespace CollisionMesh

set_option autoImplicit false

theorem toGrid_toListed (x : Binary64) : x.toListed.toGrid = x.toGrid := by
  cases x with
  | nan => decide +kernel
  | infinite negative => cases negative <;> decide +kernel
  | finite negative code => rfl

/-- A triangle is cut from one of the faces and has its tag. -/
theorem Mesh.exists_face_of_mem {mesh : Mesh} {ts : List (Triangle Binary64)}
    (h : mesh.triangulate = .ok ts) {t : Triangle Binary64} (ht : t ∈ ts) :
    ∃ face ∈ mesh.faces, t.tag = face.tag := by
  have hmem := List.mem_map_of_mem (f := fun t => (t.corners.toList, t.tag)) ht
  rw [mesh.map_triangulate h] at hmem
  obtain ⟨⟨face, i⟩, hplace, heq⟩ := List.mem_map.mp hmem
  obtain ⟨found, hfound, hrange⟩ := List.mem_flatMap.mp hplace
  obtain ⟨_, _, hface⟩ := List.mem_map.mp hrange
  cases hface
  exact ⟨face, Array.mem_toList_iff.mp hfound, (congrArg Prod.snd heq).symm⟩

theorem SurfaceRecord.ofTriangle_of_ignored {options : Options} (h : options.materialUse = .ignored)
    (t : Triangle Int) : ofTriangle options t = ofTriangle options ⟨t.corners, none⟩ := by
  simp [ofTriangle, h]

namespace Options

variable (options : Options) (input : Path)

theorem symbolFor_withExtension :
    options.symbolFor (input.withExtension "json") = options.symbolFor input := by
  rw [symbolFor, symbolFor,
    Path.fileStem?_withExtension (by decide) (by decide) (by decide)]

theorem outputFor_withExtension :
    options.outputFor (input.withExtension "json") = options.outputFor input := by
  rw [outputFor, outputFor, symbolFor_withExtension,
    Path.parent?_withExtension (by decide) (by decide)]

end Options

namespace Triangle

theorem toGrid_listedCorners (options : Options) (t : Triangle Binary64) :
    (t.listedCorners options).toGrid = (t.scaledCorners options).toGrid := by
  simp [listedCorners, Corners.toGrid, Corners.map, Point.toGrid, Point.map, toGrid_toListed]

theorem clampedCount_listedCorners (options : Options) (ts : List (Triangle Binary64)) :
    clampedCount (ts.map (listedCorners options)) =
      clampedCount (ts.map fun t => t.scaledCorners options) := by
  apply clampedCount_map_congr
  intro t
  rw [components_listedCorners, List.countP_map]
  simp only [Function.comp_def, toGrid_toListed]

end Triangle

namespace FileSystem

/-- The direct conversion, once there are triangles. -/
def conversionOf (options : Options) (input : Path) (mesh : Mesh) (ts : List (Triangle Binary64)) :
    Conversion :=
  let records := ts.map fun t => SurfaceRecord.ofTriangle options (t.toGrid options)
  { symbol := options.symbolFor input
    records := records
    source := sourceFor options input records
    clampedComponents := clampedCount (ts.map fun t => t.scaledCorners options)
    skippedFaces := mesh.skippedFaces
    skippedVertices := mesh.skippedVertices }

variable (fs : FileSystem) (options : Options) (input : Path)

theorem convert_eq_map :
    fs.convert options input =
      (fs.triangles options input).map fun front => conversionOf options input front.1 front.2 := by
  unfold convert triangles
  cases options.check with
  | error failure => rfl
  | ok _ =>
    cases hload : Mesh.load fs options.malformedVertex input with
    | error failure => rfl
    | ok mesh =>
      have hpath := Mesh.path_of_load hload
      simp only [bind, Except.bind, Mesh.surfaceRecords, hpath]
      cases mesh.triangulate with
      | error failure => rfl
      | ok ts => cases ts <;> rfl

variable {fs options input}

theorem check_of_triangles {mesh : Mesh} {ts : List (Triangle Binary64)}
    (h : fs.triangles options input = .ok (mesh, ts)) : options.check = .ok () := by
  obtain ⟨⟨⟩, hcheck, _⟩ := (bind_eq_ok_iff _ _ _).mp h
  exact hcheck

def stagedConversion (options : Options) (json : Path) (ts : List (Corners Binary64)) :
    Conversion :=
  let records := ts.map fun t => SurfaceRecord.ofTriangle options ⟨t.toGrid, none⟩
  { symbol := options.symbolFor json
    records := records
    source := sourceFor options json records
    clampedComponents := clampedCount ts
    skippedFaces := 0
    skippedVertices := 0 }

theorem symbol_stagedConversion (options : Options) (json : Path) (ts : List (Corners Binary64)) :
    (stagedConversion options json ts).symbol = options.symbolFor json := by
  simp only [stagedConversion]

theorem source_stagedConversion (options : Options) (json : Path) (ts : List (Corners Binary64)) :
    (stagedConversion options json ts).source =
      sourceFor options json (stagedConversion options json ts).records := by
  simp only [stagedConversion]

theorem convertTriangles_of_read {now : FileSystem} {json : Path} {ts : List (Corners Binary64)}
    (hcheck : options.check = .ok ()) (hread : now.read json = .ok (TriangleList.text ts).toUTF8)
    (hback : ∀ t ∈ ts, ∀ x ∈ t.components, TriangleList.ReadsBack x) (hne : ts ≠ []) :
    now.convertTriangles options json = .ok (stagedConversion options json ts) := by
  have hempty : ts.isEmpty = false := by simpa using hne
  rw [convertTriangles, hcheck, loadTriangles_of_read hread hback]
  change (if ts.isEmpty = true then _ else _) = _
  rw [hempty]
  rfl

section Records

variable (options : Options) (input json : Path) (mesh : Mesh) (ts : List (Triangle Binary64))

/-- What the list that is saved for some triangles is converted to. -/
def relisted : Conversion := stagedConversion options json (ts.map (Triangle.listedCorners options))

theorem corners_relisted :
    (relisted options json ts).records.map SurfaceRecord.corners =
      (conversionOf options input mesh ts).records.map SurfaceRecord.corners := by
  simp only [relisted, stagedConversion, conversionOf, List.map_map]
  apply List.map_congr_left
  intro t _
  exact t.toGrid_listedCorners options

theorem clampedComponents_relisted :
    (relisted options json ts).clampedComponents =
      (conversionOf options input mesh ts).clampedComponents :=
  Triangle.clampedCount_listedCorners options ts

theorem records_relisted (h : options.materialUse = .ignored ∨ ∀ t ∈ ts, t.tag = none) :
    (relisted options json ts).records = (conversionOf options input mesh ts).records := by
  simp only [relisted, stagedConversion, conversionOf, List.map_map]
  apply List.map_congr_left
  intro t ht
  rw [Function.comp_apply, t.toGrid_listedCorners options]
  rcases h with h | h
  · exact (SurfaceRecord.ofTriangle_of_ignored h (t.toGrid options)).symm
  · rw [Triangle.toGrid, h t ht]

theorem symbol_conversionOf :
    (conversionOf options input mesh ts).symbol = options.symbolFor input := by
  simp only [conversionOf]

theorem symbol_relisted : (relisted options json ts).symbol = options.symbolFor json :=
  symbol_stagedConversion options json _

theorem source_conversionOf :
    (conversionOf options input mesh ts).source =
      sourceFor options input (conversionOf options input mesh ts).records := by
  simp only [conversionOf]

theorem source_relisted :
    (relisted options json ts).source = sourceFor options json (relisted options json ts).records :=
  source_stagedConversion options json _

/-- Equal records of the default path give texts that differ in one line, the one
that names the input. -/
theorem textLines_relisted {name : String} (hname : input.fileName? = some name)
    (hline : '\n' ∉ name.toList)
    (hrecords : (relisted options (input.withExtension "json") ts).records =
      (conversionOf options input mesh ts).records) :
    ∃ listed, (input.withExtension "json").fileName? = some listed ∧
      (textLines (conversionOf options input mesh ts).source)[1]? =
        some (SurfaceArray.sourceLine name) ∧
      (textLines (relisted options (input.withExtension "json") ts).source)[1]? =
        some (SurfaceArray.sourceLine listed) ∧
      (textLines (conversionOf options input mesh ts).source).eraseIdx 1 =
        (textLines (relisted options (input.withExtension "json") ts).source).eraseIdx 1 := by
  have hlisted : (input.withExtension "json").fileName? = some _ :=
    Path.fileName?_withExtension hname (by decide) (by decide)
  have hstem : '\n' ∉ (Path.splitExtension name.toList).1 :=
    fun hmem => hline ((Path.splitExtension_fst_isPrefix name.toList).subset hmem)
  rw [source_conversionOf, source_relisted, hrecords, sourceFor, sourceFor,
    options.symbolFor_withExtension]
  exact ⟨_, hlisted, SurfaceArray.textLines_source_eq _ _ hname hlisted hline (by simpa using hstem)
    (SurfaceArray.linesBelow_mk _ _ _ _ _)⟩

end Records

/-- The list that is saved for an input is converted to what `relisted` says. -/
theorem convertTriangles_of_publish {json : Path} {count : Nat} {written : FileSystem} {mesh : Mesh}
    {ts : List (Triangle Binary64)} (hdigits : fs.DigitsReadBack options input)
    (h : fs.triangles options input = .ok (mesh, ts))
    (hexport : fs.exportTriangles options input json = (.ok count, written)) :
    count = ts.length ∧ written.convertTriangles options json = .ok (relisted options json ts) := by
  obtain ⟨_, _, hne⟩ := triangulate_of_triangles h
  obtain ⟨saved, hsaved, rfl, hread⟩ := exists_of_exportTriangles hexport
  rw [scaledTriangles_eq_map, h] at hsaved
  cases hsaved
  refine ⟨List.length_map _, ?_⟩
  exact convertTriangles_of_read (check_of_triangles h) hread (readsBack_of_digits hdigits h)
    (by simpa using hne)

/-- The saving of triangles fails when the direct conversion does, and as it does.
Otherwise, as long as digits read back, the list that was saved is converted to the same
corners and the same count of clamped components, to the same records if tags have no part
in them, and with the path that is the default for it to the same symbol, output and text
but for the line that names the input. -/
theorem convertTriangles_of_exportTriangles (fs : FileSystem) (options : Options)
    (input json : Path) :
    (∀ failure, fs.scaledTriangles options input = .error failure ↔
      fs.convert options input = .error failure) ∧
    (options.symbolFor (input.withExtension "json") = options.symbolFor input ∧
      options.outputFor (input.withExtension "json") = options.outputFor input) ∧
    (fs.DigitsReadBack options input →
      ∀ direct count written, fs.convert options input = .ok direct →
        fs.exportTriangles options input json = (.ok count, written) →
        ∃ staged, written.convertTriangles options json = .ok staged ∧
          count = direct.records.length ∧
          staged.records.map SurfaceRecord.corners = direct.records.map SurfaceRecord.corners ∧
          staged.clampedComponents = direct.clampedComponents ∧
          ((options.materialUse = .ignored ∨
              ∀ mesh, Mesh.load fs options.malformedVertex input = .ok mesh →
                ∀ face ∈ mesh.faces, face.tag = none) →
            staged.records = direct.records) ∧
          (json = input.withExtension "json" → staged.symbol = direct.symbol ∧
            (staged.records = direct.records →
              (input.fileName? = none → staged.source = direct.source) ∧
              ∀ name, input.fileName? = some name → '\n' ∉ name.toList →
                ∃ listed, json.fileName? = some listed ∧
                  (textLines direct.source)[1]? = some (SurfaceArray.sourceLine name) ∧
                  (textLines staged.source)[1]? = some (SurfaceArray.sourceLine listed) ∧
                  (textLines direct.source).eraseIdx 1 =
                    (textLines staged.source).eraseIdx 1))) := by
  refine ⟨?_, ⟨options.symbolFor_withExtension input, options.outputFor_withExtension input⟩, ?_⟩
  · intro failure
    rw [convert_eq_map, scaledTriangles_eq_map]
    cases fs.triangles options input <;> simp [Except.map]
  · intro hdigits direct count written hdirect hexport
    rw [convert_eq_map] at hdirect
    cases h : fs.triangles options input with
    | error failure =>
      rw [h] at hdirect
      cases hdirect
    | ok front =>
      obtain ⟨mesh, ts⟩ := front
      rw [h] at hdirect
      obtain rfl : conversionOf options input mesh ts = direct := Except.ok.inj hdirect
      obtain ⟨hload, hcut, _⟩ := triangulate_of_triangles h
      obtain ⟨rfl, hstaged⟩ := convertTriangles_of_publish hdigits h hexport
      refine ⟨_, hstaged, (List.length_map _).symm, corners_relisted options input json mesh ts,
        clampedComponents_relisted options input json mesh ts, ?_, ?_⟩
      · intro htags
        refine records_relisted options input json mesh ts (htags.imp_right fun htags t ht => ?_)
        obtain ⟨face, hface, htag⟩ := Mesh.exists_face_of_mem hcut ht
        rw [htag, htags mesh hload face hface]
      · rintro rfl
        rw [symbol_relisted, symbol_conversionOf]
        refine ⟨options.symbolFor_withExtension input, fun hrecords => ⟨fun hname => ?_, ?_⟩⟩
        · rw [source_relisted, source_conversionOf, hrecords,
            Path.withExtension_of_fileName?_eq_none hname]
        · intro name hname hline
          exact textLines_relisted options input mesh ts hname hline hrecords

/-- A file with a coordinate that overflows, an infinite one, and one that is no number. -/
theorem convertTriangles_of_exportTriangles_overflow :
    let fs : FileSystem :=
      ⟨[(["a.obj"], .file "v 1e307 -inf nan\nv 0.1 2 700\nv 1 -1e3 0\nf 1 2 3\n".toUTF8)], []⟩
    fs.DigitsReadBack Options.default ⟨"a.obj"⟩ ∧
      ∃ direct written staged, fs.convert Options.default ⟨"a.obj"⟩ = .ok direct ∧
        fs.exportTriangles Options.default ⟨"a.obj"⟩ ⟨"a.json"⟩ = (.ok 1, written) ∧
        written.convertTriangles Options.default ⟨"a.json"⟩ = .ok staged ∧
        staged.records.map SurfaceRecord.corners = direct.records.map SurfaceRecord.corners ∧
        direct.clampedComponents = 4 ∧ staged.clampedComponents = 4 := by
  intro fs
  have hdigits : fs.DigitsReadBack Options.default ⟨"a.obj"⟩ := by decide +kernel
  have hclamped : (fs.convert Options.default ⟨"a.obj"⟩).map Conversion.clampedComponents =
      .ok 4 := by
    decide +kernel
  have hcount : (fs.exportTriangles Options.default ⟨"a.obj"⟩ ⟨"a.json"⟩).1 = .ok 1 := by
    decide +kernel
  generalize hexport : fs.exportTriangles Options.default ⟨"a.obj"⟩ ⟨"a.json"⟩ = exported at hcount
  obtain ⟨outcome, written⟩ := exported
  obtain rfl : outcome = .ok 1 := hcount
  cases hdirect : fs.convert Options.default ⟨"a.obj"⟩ with
  | error failure =>
    rw [hdirect] at hclamped
    cases hclamped
  | ok direct =>
    rw [hdirect] at hclamped
    have hclamped : direct.clampedComponents = 4 := Except.ok.inj hclamped
    obtain ⟨staged, hstaged, _, hcorners, hsame, _⟩ :=
      (convertTriangles_of_exportTriangles fs Options.default ⟨"a.obj"⟩ ⟨"a.json"⟩).2.2 hdigits
        direct 1 written hdirect hexport
    exact ⟨hdigits, direct, written, staged, rfl, rfl, hstaged, hcorners, hclamped,
      hsame.trans hclamped⟩

end FileSystem

end CollisionMesh
