import CollisionMesh.Proofs.ManifestJobs
import CollisionMesh.Proofs.OptionFaults
import CollisionMesh.Proofs.SourceReading
import CollisionMesh.Proofs.ValidSurfaces

/-!
# Building an accepted manifest

The build relies on the check of the manifest and asks nothing again. What the check promised
holds of every mesh at the end: its options were honoured, its file defines an array of its name,
and no other file is new.
-/

namespace CollisionMesh

set_option autoImplicit false

open FileSystem

namespace Manifest

section Orders

/-- A build that converts the meshes in an order of their numbers. -/
def buildInOrder (manifest : Manifest) (fs : FileSystem) (instead : Option Path)
    (order : List Nat) :
    Except ManifestFault (List Artifact) × FileSystem :=
  let directory := manifest.outputDirectory instead
  match fs.makeDirectories directory with
  | (.error fault, fs) => (.error (.noDirectory directory fault), fs)
  | (.ok (), fs) =>
    let (outcomes, fs) := manifest.convertInOrder fs directory order
    manifest.conclude fs directory outcomes

/-- The order of the names is one of the orders. -/
theorem buildInOrder_range (manifest : Manifest) (fs : FileSystem) (instead : Option Path) :
    manifest.buildInOrder fs instead (List.range manifest.meshes.length) =
      manifest.build fs instead := by
  have hrun : ∀ base directory,
      manifest.convertInOrder base directory (List.range manifest.meshes.length) =
        runJobs base (manifest.meshes.map (manifest.job directory)) := by
    intro base directory
    rw [convertInOrder, ← Batch.runJobsInOrder_range, List.length_map]
  cases hmade : fs.makeDirectories (manifest.outputDirectory instead) with
  | mk outcome base =>
    cases outcome with
    | error fault => simp only [buildInOrder, build, hmade]
    | ok _ => simp only [buildInOrder, build, hmade, hrun]

end Orders

section Conclusion

variable {manifest : Manifest} {outcomes : List (Except Failure Artifact)}

theorem filterMap_toOption_map_ok {ε α : Type} (results : List α) :
    (results.map (Except.ok : α → Except ε α)).filterMap Except.toOption = results := by
  rw [List.filterMap_map]
  exact List.filterMap_some

theorem map_ok_filterMap_toOption {ε α : Type} {results : List (Except ε α)}
    (h : ∀ result ∈ results, result.isOk = true) :
    (results.filterMap Except.toOption).map Except.ok = results := by
  induction results with
  | nil => rfl
  | cons result results ih =>
    obtain ⟨hresult, hrest⟩ := List.forall_mem_cons.mp h
    cases result with
    | error fault => cases hresult
    | ok value =>
      have hfirst : (Except.ok value : Except ε α).toOption = some value := rfl
      rw [List.filterMap_cons_some hfirst, List.map_cons, ih hrest]

theorem failures_eq_nil_iff (hlength : outcomes.length = manifest.meshes.length) :
    manifest.failures outcomes = [] ↔ ∀ outcome ∈ outcomes, outcome.isOk = true := by
  have hzip : (manifest.meshes.zip outcomes).map Prod.snd = outcomes :=
    List.map_snd_zip (Nat.le_of_eq hlength)
  rw [← hzip, List.forall_mem_map, failures, List.filterMap_eq_nil_iff, hzip]
  refine forall₂_congr fun entry _ => ?_
  cases entry.2 <;> simp [Except.isOk, Except.toBool]

/-- Without a header to write, a build changes no more files, and succeeds if all meshes do. -/
theorem conclude_of_header_eq_none (fs : FileSystem) (directory : Path)
    (hheader : manifest.header = none) (hlength : outcomes.length = manifest.meshes.length) :
    (manifest.conclude fs directory outcomes).2 = fs ∧ ∀ artifacts,
      (manifest.conclude fs directory outcomes).1 = .ok artifacts ↔
        outcomes = artifacts.map .ok := by
  have hnil := failures_eq_nil_iff hlength
  unfold conclude writeHeader
  simp only [hheader]
  cases hfailures : manifest.failures outcomes with
  | nil =>
    have hok := map_ok_filterMap_toOption (hnil.mp hfailures)
    refine ⟨rfl, fun artifacts => ⟨fun h => ?_, ?_⟩⟩
    · cases h
      exact hok.symm
    · rintro rfl
      rw [filterMap_toOption_map_ok]
  | cons failure failures =>
    refine ⟨rfl, fun artifacts => ⟨nofun, ?_⟩⟩
    rintro rfl
    rw [hfailures] at hnil
    exact absurd (hnil.mpr (by simp [Except.isOk, Except.toBool])) (by simp)

end Conclusion

/-- A generated file that defines the array and the count of a mesh, under its name as it stands. -/
structure Defines (final : FileSystem) (directory : Path) (name : String) (artifact : Artifact) :
    Prop where
  symbol : artifact.symbol = name
  path : artifact.path = outputPath directory name
  file : ∃ array : SurfaceArray, array.symbol = name ∧
    final.read (outputPath directory name) = .ok array.source.toUTF8 ∧
    "const struct SM64Surface " ++ Identifier.arrayName name ++ "[] = \x7b" ∈
      textLines array.source ∧
    "const size_t " ++ Identifier.countName name ++ " = sizeof(" ++ Identifier.arrayName name ++
      ") / sizeof(" ++ Identifier.arrayName name ++ "[0]);" ∈ textLines array.source

/-- What a build makes of the system `fs`, in which it has made the output
directory, as in `base`. -/
structure Faithful (manifest : Manifest) (fs base : FileSystem) (directory : Path)
    (outcomes : List (Except Failure Artifact)) (built : Except ManifestFault (List Artifact))
    (final : FileSystem) : Prop where
  alone : outcomes = manifest.meshes.map (manifest.alone base directory)
  honoured : ∀ fault, .error (.invalidOptions fault) ∉ outcomes
  defines : ∀ mesh ∈ manifest.meshes, ∀ artifact,
    manifest.alone base directory mesh = .ok artifact → Defines final directory mesh.1 artifact
  distinct : (outcomes.filterMap Except.toOption).Pairwise fun a b =>
    a.path.same b.path = false ∧ a.symbol ≠ b.symbol
  complete : (∃ artifacts, built = .ok artifacts) ↔ ∀ outcome ∈ outcomes, outcome.isOk = true
  artifacts : ∀ artifacts, built = .ok artifacts → outcomes = artifacts.map .ok ∧
    artifacts.map Artifact.symbol = manifest.meshes.map Prod.fst ∧
    (artifacts.map Artifact.symbol).Pairwise (· < ·)
  others : ∀ location, (∀ mesh ∈ manifest.meshes, (manifest.alone base directory mesh).isOk = true →
      ∀ content, final.locate (outputPath directory mesh.1) ≠ .ok (location, .file content)) →
    ∀ content, final.lookup location = some (.file content) ↔
      fs.lookup location = some (.file content)

section Faithful

variable {manifest : Manifest} {fs base final : FileSystem} {directory : Path}
  {mesh : String × MeshEntry} {outcomes : List (Except Failure Artifact)}
  {done : List (Location × ByteArray)} {order : List Nat}

theorem Converted.locate (h : manifest.Converted base directory outcomes done final)
    (hmem : mesh ∈ manifest.meshes) {write : Location × ByteArray}
    (hwrite : manifest.write? base directory mesh = some write) :
    final.locate (outputPath directory mesh.1) = .ok (write.1, .file write.2) := by
  obtain ⟨_, _, hplace, _⟩ := write?_eq_some_iff.mp hwrite
  exact h.reached.locate (Grows.refl base) (consistent_of_nodup h.nodup)
    (h.perm.mem_iff.mpr (List.mem_filterMap.mpr ⟨mesh, hmem, hwrite⟩)) hplace

theorem symbolFor_options (hname : Identifier.isIdentifier mesh.1 = true) (defaults : Options)
    (input : Path) :
    (mesh.2.options mesh.1 defaults).symbolFor input = mesh.1 :=
  Options.symbolFor_of_isIdentifier (MeshEntry.symbol_options mesh.2 mesh.1 defaults) hname input

theorem exists_array {options : Options} {input : Path} {conversion : Conversion}
    (h : conversion.Valid options input) :
    ∃ array : SurfaceArray, array.symbol = conversion.symbol ∧ array.source = conversion.source :=
  ⟨⟨conversion.symbol, input.fileName?, options.includes, conversion.records⟩, rfl, h.source.symm⟩

theorem defines_of_converted (h : manifest.Converted base directory outcomes done final)
    (hmem : mesh ∈ manifest.meshes) (hname : Identifier.isIdentifier mesh.1 = true)
    {artifact : Artifact} (halone : manifest.alone base directory mesh = .ok artifact) :
    Defines final directory mesh.1 artifact := by
  have hsuccess := h.success mesh hmem
  rw [halone] at hsuccess
  obtain ⟨write, hwrite⟩ := Option.isSome_iff_exists.mp hsuccess.symm
  obtain ⟨conversion, hconversion, _, hcontent⟩ := write?_eq_some_iff.mp hwrite
  have hpublished : base.convertTo (mesh.2.options mesh.1 manifest.defaults)
      (manifest.sourcePath mesh.2) (outputPath directory mesh.1) = (.ok artifact, _) :=
    Prod.ext halone rfl
  obtain ⟨other, hother, rfl, _⟩ := exists_conversion_of_publish hpublished
  rw [hconversion] at hother
  obtain rfl : conversion = other := Except.ok.inj hother
  have hvalid := valid_of_convert hconversion
  have hsymbol : conversion.symbol = mesh.1 := hvalid.symbol_eq.trans (symbolFor_options hname _ _)
  obtain ⟨array, harray, hsource⟩ := exists_array hvalid
  rw [hsymbol] at harray
  have hread := read_of_locate (h.locate hmem hwrite)
  rw [← hcontent, ← hsource] at hread
  exact ⟨hsymbol, rfl, array, harray, hread, SurfaceArray.defines_source harray hname⟩

theorem pairwise_artifacts (hready : manifest.Ready base directory)
    (hdefines : ∀ mesh ∈ manifest.meshes, ∀ artifact,
      manifest.alone base directory mesh = .ok artifact → Defines final directory mesh.1 artifact) :
    ((manifest.meshes.map (manifest.alone base directory)).filterMap Except.toOption).Pairwise
      fun a b => a.path.same b.path = false ∧ a.symbol ≠ b.symbol := by
  have hnames := List.pairwise_map.mp (List.nodup_iff_pairwise_ne.mp hready.names)
  rw [List.pairwise_filterMap, List.pairwise_map]
  refine List.Pairwise.imp_of_mem ?_ hnames
  intro mesh other hmem hother hne artifact hartifact artifact' hartifact'
  have hdefined := hdefines mesh hmem artifact (toOption_eq_some_iff.mp hartifact)
  have hdefined' := hdefines other hother artifact' (toOption_eq_some_iff.mp hartifact')
  rw [hdefined.symbol, hdefined'.symbol, hdefined.path, hdefined'.path, Bool.eq_false_iff]
  exact ⟨fun hsame => hne (eq_of_same_outputPath (hready.identifier mesh hmem)
    (hready.identifier other hother) hsame), hne⟩

theorem map_symbol_of_alone {meshes : List (String × MeshEntry)} {artifacts : List Artifact}
    (hsymbol : ∀ mesh ∈ meshes, ∀ artifact, manifest.alone base directory mesh = .ok artifact →
      artifact.symbol = mesh.1)
    (h : meshes.map (manifest.alone base directory) = artifacts.map .ok) :
    artifacts.map Artifact.symbol = meshes.map Prod.fst := by
  induction meshes generalizing artifacts with
  | nil =>
    rw [List.map_eq_nil_iff.mp h.symm]
    rfl
  | cons mesh meshes ih =>
    obtain ⟨hmesh, hrest⟩ := List.forall_mem_cons.mp hsymbol
    cases artifacts with
    | nil => cases h
    | cons artifact artifacts =>
      obtain ⟨hfirst, hmore⟩ := List.cons.inj h
      rw [List.map_cons, List.map_cons, hmesh artifact hfirst, ih hrest hmore]

theorem faithful_of_converted (hheader : manifest.header = none)
    (hload : (manifest.meshes.map Prod.fst).Pairwise (· < ·))
    (hvalid : manifest.validate fs = .ok ()) (hgrows : Grows fs base)
    (hready : manifest.Ready base directory)
    (h : manifest.Converted base directory outcomes done final) :
    manifest.Faithful fs base directory outcomes (manifest.conclude final directory outcomes).1
      (manifest.conclude final directory outcomes).2 := by
  have hlength : outcomes.length = manifest.meshes.length := by rw [h.outcomes_eq, List.length_map]
  obtain ⟨hfinal, hbuilt⟩ := conclude_of_header_eq_none final directory hheader hlength
  rw [hfinal]
  have hdefines : ∀ mesh ∈ manifest.meshes, ∀ artifact,
      manifest.alone base directory mesh = .ok artifact → Defines final directory mesh.1 artifact :=
    fun mesh hmem artifact halone =>
    defines_of_converted h hmem (hready.identifier mesh hmem) halone
  refine ⟨h.outcomes_eq, ?honoured, hdefines, ?distinct, ?complete, ?artifacts, ?others⟩
  case honoured =>
    intro fault hmem
    rw [h.outcomes_eq] at hmem
    obtain ⟨mesh, hmesh, halone⟩ := List.mem_map.mp hmem
    have hrefused := (base.convertTo_eq_invalidOptions_iff _ _ _ fault).mp halone
    rw [(buildable_of_validate hvalid mesh hmesh).valid] at hrefused
    cases hrefused
  case distinct =>
    rw [h.outcomes_eq]
    exact pairwise_artifacts hready hdefines
  case complete =>
    constructor
    · rintro ⟨artifacts, hartifacts⟩
      rw [(hbuilt artifacts).mp hartifacts]
      exact List.forall_mem_map.mpr fun _ _ => rfl
    · intro hok
      exact ⟨_, (hbuilt _).mpr (map_ok_filterMap_toOption hok).symm⟩
  case artifacts =>
    intro artifacts hartifacts
    have hall := (hbuilt artifacts).mp hartifacts
    have hsymbols := map_symbol_of_alone
      (fun mesh hmem artifact halone => (hdefines mesh hmem artifact halone).symbol)
      (h.outcomes_eq.symm.trans hall)
    exact ⟨hall, hsymbols, hsymbols ▸ hload⟩
  case others =>
    intro location hnone content
    have hleaves := h.reached.leaves (Grows.refl base) (consistent_of_nodup h.nodup)
    have hfree : location ∉ done.map Prod.fst := by
      intro hwritten
      obtain ⟨write, hin, rfl⟩ := List.mem_map.mp hwritten
      obtain ⟨mesh, hmem, hwrite⟩ := List.mem_filterMap.mp (h.perm.mem_iff.mp hin)
      have hsuccess : (manifest.alone base directory mesh).isOk = true := by
        rw [h.success mesh hmem, hwrite]
        rfl
      exact hnone mesh hmem hsuccess _ (h.locate hmem hwrite)
    rw [hleaves.lookup_iff hfree content]
    exact ⟨hgrows.file location content, hgrows.keeps.lookup location _ List.not_mem_nil⟩

/-- A manifest that is loaded and accepted, without a header, into a directory that can be made,
such that no mesh writes over what another one is read from: in whatever order the meshes are built,
each is built as if it were alone, what the check promised is kept, and only what the meshes that
succeed define is new. -/
theorem buildInOrder_faithful {path : Path} (instead : Option Path)
    (hload : Manifest.load fs path = .ok manifest) (hvalid : manifest.validate fs = .ok ())
    (hheader : manifest.header = none)
    (hmade : fs.makeDirectories (manifest.outputDirectory instead) = (.ok (), base))
    (hapart : ∀ mesh ∈ manifest.meshes, ∀ other ∈ manifest.meshes, mesh.1 ≠ other.1 →
      ¬manifest.Overwrites base (manifest.outputDirectory instead) mesh other)
    (horder : order.Perm (List.range manifest.meshes.length)) :
    manifest.Faithful fs base (manifest.outputDirectory instead)
        (manifest.convertInOrder base (manifest.outputDirectory instead) order).1
        (manifest.buildInOrder fs instead order).1 (manifest.buildInOrder fs instead order).2 ∧
      manifest.buildInOrder fs instead (List.range manifest.meshes.length) =
        manifest.build fs instead := by
  refine ⟨?_, manifest.buildInOrder_range fs instead⟩
  have hgrows := grows_makeDirectories hmade
  have hnames := ascending_of_load hload
  have hready := ready_of_validate hnames hvalid hgrows hapart
  obtain ⟨done, hconverted⟩ := convertsAlone_of_makeDirectories horder hready hmade
  have hbuild : manifest.buildInOrder fs instead order =
      manifest.conclude (manifest.convertInOrder base (manifest.outputDirectory instead) order).2
        (manifest.outputDirectory instead)
        (manifest.convertInOrder base (manifest.outputDirectory instead) order).1 := by
    simp only [buildInOrder, hmade]
  rw [hbuild]
  exact faithful_of_converted hheader hnames hvalid hgrows hready hconverted

/-- A manifest of two meshes, of which the second one has no faces. -/
def twoMeshes : FileSystem :=
  ⟨[(["m.toml"],
      .file ("[meshes]\nhill = \"a.obj\"\n" ++
        "hole = \x7b path = \"b.obj\", default_tag = \"ICE\" \x7d\n").toUTF8),
    (["a.obj"], .file "v 0 0 0\nv 1 0 0\nv 0 1 0\nf 1 2 3\n".toUTF8),
    (["b.obj"], .file "v 0 0 0\n".toUTF8)], []⟩

theorem buildInOrder_faithful_two :
    let manifest : Manifest :=
      ⟨⟨""⟩, ⟨"collision/"⟩, none, Options.default,
        [("hill", ⟨⟨"a.obj"⟩, {}⟩), ("hole", ⟨⟨"b.obj"⟩, { defaultSurface := some "ICE" }⟩)]⟩
    let base := (twoMeshes.makeDirectories (manifest.outputDirectory none)).2
    let outcomes := (manifest.convertInOrder base (manifest.outputDirectory none) [1, 0]).1
    Manifest.load twoMeshes ⟨"m.toml"⟩ = .ok manifest ∧ manifest.validate twoMeshes = .ok () ∧
      outcomes.map Except.isOk = [true, false] ∧
      manifest.Faithful twoMeshes base (manifest.outputDirectory none) outcomes
        (manifest.buildInOrder twoMeshes none [1, 0]).1
        (manifest.buildInOrder twoMeshes none [1, 0]).2 := by
  intro manifest base outcomes
  have hload : Manifest.load twoMeshes ⟨"m.toml"⟩ = .ok manifest := by decide +kernel
  have hvalid : manifest.validate twoMeshes = .ok () := by decide +kernel
  have hmade : twoMeshes.makeDirectories (manifest.outputDirectory none) = (.ok (), base) :=
    Prod.ext (by decide +kernel) rfl
  have hplaces : ∀ mesh ∈ manifest.meshes, ∀ other ∈ manifest.meshes,
      (base.locate (manifest.sourcePath other.2)).map Prod.fst ≠
        base.place (outputPath (manifest.outputDirectory none) mesh.1) := by
    decide +kernel
  refine ⟨hload, hvalid, by decide +kernel,
    (buildInOrder_faithful none hload hvalid rfl hmade ?_ (by decide)).1⟩
  rintro mesh hmem other hother _ ⟨_, location, node, hlocate, hplace⟩
  apply hplaces mesh hmem other hother
  rw [hlocate, hplace]
  rfl

end Faithful

end Manifest

end CollisionMesh
