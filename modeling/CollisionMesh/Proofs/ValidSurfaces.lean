import CollisionMesh.Proofs.TwoStages

/-!
# Every surface that is emitted is valid

Nothing that an input or its options hold gets into a generated file unchecked: names are made
identifiers or are refused, coordinates are held to the grid, and without records there is no file.
The same holds on both ways to a file, from a mesh and from a list of triangles.
-/

namespace CollisionMesh

set_option autoImplicit false

/-- A surface whose names the compiler takes and whose corners the grid holds. -/
structure SurfaceRecord.Valid (record : SurfaceRecord) : Prop where
  surface : Identifier.isIdentifier record.surface = true
  terrain : Identifier.isIdentifier record.terrain = true
  force : record.force = 0
  corners : ∀ x ∈ record.corners.components, -32767 ≤ x ∧ x ≤ 32767

/-- What every conversion of an input is, whatever the input holds. -/
structure Conversion.Valid (options : Options) (input : Path) (conversion : Conversion) : Prop where
  records_ne_nil : conversion.records ≠ []
  records : ∀ record ∈ conversion.records, record.Valid
  symbol : Identifier.isIdentifier conversion.symbol = true
  symbol_eq : conversion.symbol = options.symbolFor input
  arrayName : Identifier.isIdentifier (Identifier.arrayName conversion.symbol) = true
  countName : Identifier.isIdentifier (Identifier.countName conversion.symbol) = true
  source : conversion.source =
    SurfaceArray.source ⟨conversion.symbol, input.fileName?, options.includes, conversion.records⟩

theorem Options.isIdentifier_of_check {options : Options} (h : options.check = .ok ()) :
    Identifier.isIdentifier options.defaultSurface = true ∧
      Identifier.isIdentifier options.defaultTerrain = true := by
  have hvalid : options.validate = .ok () := by
    unfold check at h
    cases hvalidate : options.validate with
    | error fault =>
      rw [hvalidate] at h
      cases h
    | ok _ => rfl
  exact (options.validate_eq_ok_iff.mp hvalid).2

/-- Text without a name in it still gives a symbol. -/
theorem Options.isIdentifier_symbolFor (options : Options) (input : Path) :
    Identifier.isIdentifier (options.symbolFor input) = true := by
  unfold symbolFor
  simp only
  split
  · decide
  · rename_i hname
    exact Identifier.isIdentifier_sanitize (by simpa using hname)

theorem Corners.toGrid_mem_range (t : Corners Binary64) :
    ∀ x ∈ t.toGrid.components, -32767 ≤ x ∧ x ≤ 32767 := by
  intro x hx
  have hmap : t.toGrid.components = t.components.map fun x => x.toGrid.1 := rfl
  rw [hmap] at hx
  obtain ⟨y, _, rfl⟩ := List.mem_map.mp hx
  exact CollisionMesh.toGrid_mem_range y

namespace SurfaceRecord

theorem isIdentifier_of_material? {options : Options} {tag : Option String} {name : String}
    (h : material? options tag = some name) : Identifier.isIdentifier name = true := by
  obtain ⟨hmap, hne⟩ := Option.filter_eq_some_iff.mp h
  obtain ⟨text, _, rfl⟩ := Option.map_eq_some_iff.mp hmap
  exact Identifier.isIdentifier_ofMaterial (by simpa using hne)

/-- Options are checked for their defaults only; names of materials are
identifiers by themselves. -/
theorem valid_ofTriangle {options : Options} (h : options.check = .ok ()) (t : Corners Binary64)
    (tag : Option String) : (ofTriangle options ⟨t.toGrid, tag⟩).Valid := by
  obtain ⟨hsurface, hterrain⟩ := Options.isIdentifier_of_check h
  have hname : ∀ name, material? options tag = some name → Identifier.isIdentifier name = true :=
    fun _ => isIdentifier_of_material?
  unfold ofTriangle
  simp only
  cases options.materialUse with
  | ignored => exact ⟨hsurface, hterrain, rfl, t.toGrid_mem_range⟩
  | surface =>
    cases hmaterial : material? options tag with
    | none => exact ⟨hsurface, hterrain, rfl, t.toGrid_mem_range⟩
    | some name => exact ⟨hname name hmaterial, hterrain, rfl, t.toGrid_mem_range⟩
  | terrain =>
    cases hmaterial : material? options tag with
    | none => exact ⟨hsurface, hterrain, rfl, t.toGrid_mem_range⟩
    | some name => exact ⟨hsurface, hname name hmaterial, rfl, t.toGrid_mem_range⟩

end SurfaceRecord

/-- Both ways to a conversion end alike: records of triangles, and the symbol and the
text that go with them. -/
theorem Conversion.valid_of_records {options : Options} {input : Path} {conversion : Conversion}
    (hsymbol : conversion.symbol = options.symbolFor input)
    (hsource : conversion.source = sourceFor options input conversion.records)
    (hne : conversion.records ≠ []) (hrecords : ∀ record ∈ conversion.records, record.Valid) :
    conversion.Valid options input := by
  have hname : Identifier.isIdentifier conversion.symbol = true := by
    rw [hsymbol]
    exact options.isIdentifier_symbolFor input
  refine ⟨hne, hrecords, hname, hsymbol, Identifier.isIdentifier_arrayName hname,
    Identifier.isIdentifier_countName hname, ?_⟩
  rw [hsource, sourceFor, hsymbol]

namespace FileSystem

variable {fs : FileSystem} {options : Options} {input : Path} {conversion : Conversion}

theorem valid_of_convert (h : fs.convert options input = .ok conversion) :
    conversion.Valid options input := by
  rw [convert_eq_map] at h
  cases hfront : fs.triangles options input with
  | error failure =>
    rw [hfront] at h
    cases h
  | ok front =>
    obtain ⟨mesh, ts⟩ := front
    rw [hfront] at h
    obtain rfl : conversionOf options input mesh ts = conversion := Except.ok.inj h
    obtain ⟨_, _, hne⟩ := triangulate_of_triangles hfront
    have hcheck := check_of_triangles hfront
    refine Conversion.valid_of_records (symbol_conversionOf options input mesh ts)
      (source_conversionOf options input mesh ts) ?_ ?_
    · exact mt List.map_eq_nil_iff.mp hne
    · intro record hrecord
      obtain ⟨t, _, rfl⟩ := List.mem_map.mp hrecord
      exact SurfaceRecord.valid_ofTriangle hcheck (t.scaledCorners options) t.tag

theorem valid_of_convertTriangles (h : fs.convertTriangles options input = .ok conversion) :
    conversion.Valid options input := by
  obtain ⟨⟨⟩, hcheck, h⟩ := (bind_eq_ok_iff _ _ _).mp h
  obtain ⟨ts, _, h⟩ := (bind_eq_ok_iff _ _ _).mp h
  split at h
  · cases h
  · rename_i hempty
    obtain rfl : stagedConversion options input ts = conversion := Except.ok.inj h
    have hne : ts ≠ [] := by simpa using hempty
    refine Conversion.valid_of_records (symbol_stagedConversion options input ts)
      (source_stagedConversion options input ts) ?_ ?_
    · exact mt List.map_eq_nil_iff.mp hne
    · intro record hrecord
      obtain ⟨t, _, rfl⟩ := List.mem_map.mp hrecord
      exact SurfaceRecord.valid_ofTriangle hcheck t none

/-- What is reported about a file that was written, and the file, are those of a conversion. -/
theorem exists_conversion_of_publish {computed : Except Failure Conversion} {output : Path}
    {artifact : Artifact} {final : FileSystem}
    (h : fs.publish output (computed.map fun conversion =>
      (conversion.artifact output, conversion.source)) = (.ok artifact, final)) :
    ∃ conversion, computed = .ok conversion ∧ artifact = conversion.artifact output ∧
      final.read output = .ok conversion.source.toUTF8 := by
  have hpublish := allOrNothing_publish fs output (computed.map fun conversion =>
    (conversion.artifact output, conversion.source))
  obtain ⟨text, _, hcomputed, _, hread, _⟩ := hpublish.complete artifact (by rw [h])
  rw [h] at hread
  cases computed with
  | error failure => cases hcomputed
  | ok conversion =>
    cases hcomputed
    exact ⟨conversion, rfl, rfl, hread⟩

/-- A conversion that succeeds is valid for every input and all options, from a mesh and from a list
of triangles; and what is written to a file, or reported about it, is that of a valid conversion. -/
theorem conversions_valid (fs : FileSystem) (options : Options) (input : Path) :
    (∀ conversion, fs.convert options input = .ok conversion → conversion.Valid options input) ∧
    (∀ conversion, fs.convertTriangles options input = .ok conversion →
      conversion.Valid options input) ∧
    ∀ output artifact final,
      fs.convertTo options input output = (.ok artifact, final) ∨
        fs.convertTrianglesTo options input output = (.ok artifact, final) →
      ∃ conversion : Conversion, conversion.Valid options input ∧
        artifact = conversion.artifact output ∧
        final.read output = .ok conversion.source.toUTF8 := by
  refine ⟨fun _ => valid_of_convert, fun _ => valid_of_convertTriangles, ?_⟩
  rintro output artifact final (h | h)
  · obtain ⟨conversion, hconvert, heq, hread⟩ := exists_conversion_of_publish h
    exact ⟨conversion, valid_of_convert hconvert, heq, hread⟩
  · obtain ⟨conversion, hconvert, heq, hread⟩ := exists_conversion_of_publish h
    exact ⟨conversion, valid_of_convertTriangles hconvert, heq, hread⟩

/-- A file and a material whose names are no identifiers, and coordinates that
the grid does not hold. -/
theorem conversions_valid_unnameable :
    let fs : FileSystem :=
      ⟨[(["3 brïdges.obj"],
          .file "usemtl lava-ß 2\nv 1e307 -inf nan\nv 0 1 2\nv 3 4 5\nf 1 2 3\n".toUTF8)], []⟩
    let options : Options := { Options.default with materialLead := "9 " }
    let input : Path := ⟨"3 brïdges.obj"⟩
    let record : SurfaceRecord :=
      ⟨"_9_LAVA___2", 0, "TERRAIN_STONE", ⟨⟨32767, 0, 32767⟩, ⟨0, 100, -50⟩, ⟨150, 250, -200⟩⟩⟩
    ∃ conversion, fs.convert options input = .ok conversion ∧ conversion.symbol = "_3_br_dges" ∧
      conversion.records = [record] ∧ conversion.Valid options input := by
  intro fs options input record
  have hfields : (fs.convert options input).map
      (fun conversion => (conversion.symbol, conversion.records)) =
      .ok ("_3_br_dges", [record]) := by
    decide +kernel
  cases hconvert : fs.convert options input with
  | error failure =>
    rw [hconvert] at hfields
    cases hfields
  | ok conversion =>
    rw [hconvert] at hfields
    obtain ⟨hsymbol, hrecords⟩ := Prod.mk.inj (Except.ok.inj hfields)
    exact ⟨conversion, rfl, hsymbol, hrecords,
      (conversions_valid fs options input).1 conversion hconvert⟩

end FileSystem

end CollisionMesh
