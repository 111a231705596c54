import CollisionMesh.Proofs.ManifestBuild
import CollisionMesh.Proofs.RunEffects

/-!
# The header of a build

The header is written after the files of the meshes, to a path that the manifest is free to choose,
and before the failures of meshes are reported. So a build that succeeds has delivered all it
reports, but for a file that the header was written over; and a build with failed meshes names them
all, but if the header cannot be written.
-/

namespace CollisionMesh

set_option autoImplicit false

open FileSystem

namespace Manifest

section Concluding

variable {manifest : Manifest} {fs base left last : FileSystem} {directory : Path}
  {instead : Option Path} {outcomes : List (Except Failure Artifact)} {artifacts : List Artifact}
  {failure : Failure}

theorem buildInOrder_of_makeDirectories (order : List Nat)
    (h : fs.makeDirectories (manifest.outputDirectory instead) = (.ok (), base)) :
    manifest.buildInOrder fs instead order =
      manifest.conclude (manifest.convertInOrder base (manifest.outputDirectory instead) order).2
        (manifest.outputDirectory instead)
        (manifest.convertInOrder base (manifest.outputDirectory instead) order).1 := by
  simp only [buildInOrder, h]

theorem buildInOrder_of_refused (order : List Nat) {fault : SystemFault}
    (h : fs.makeDirectories (manifest.outputDirectory instead) = (.error fault, left)) :
    manifest.buildInOrder fs instead order =
      (.error (.noDirectory (manifest.outputDirectory instead) fault), left) := by
  simp only [buildInOrder, h]

theorem conclude_of_header_error
    (h : manifest.writeHeader fs directory (outcomes.filterMap Except.toOption) =
      (.error failure, left)) :
    manifest.conclude fs directory outcomes = (.error (.header failure), left) := by
  simp only [conclude, h]

theorem conclude_of_header
    (h : manifest.writeHeader fs directory (outcomes.filterMap Except.toOption) = (.ok (), left))
    (hfailures : manifest.failures outcomes ≠ []) :
    manifest.conclude fs directory outcomes =
      (.error (.failedMeshes manifest.meshes.length (manifest.failures outcomes)), left) := by
  simp only [conclude, h]

theorem conclude_eq_ok (hlength : outcomes.length = manifest.meshes.length)
    (h : manifest.conclude fs directory outcomes = (.ok artifacts, last)) :
    outcomes = artifacts.map .ok ∧
    manifest.writeHeader fs directory artifacts = (.ok (), last) := by
  cases hheader : manifest.writeHeader fs directory (outcomes.filterMap Except.toOption) with
  | mk written left =>
    cases written with
    | error failure =>
      rw [conclude_of_header_error hheader] at h
      cases h
    | ok _ =>
      by_cases hfailures : manifest.failures outcomes = []
      · simp only [conclude, hheader, hfailures] at h
        cases h
        exact ⟨(map_ok_filterMap_toOption ((failures_eq_nil_iff hlength).mp hfailures)).symm,
          hheader⟩
      · rw [conclude_of_header hheader hfailures] at h
        cases h

/-- A build that does not fail for its header has written it, and nothing after it. -/
theorem writeHeader_of_conclude
    (h : ∀ failure, (manifest.conclude fs directory outcomes).1 ≠ .error (.header failure)) :
    manifest.writeHeader fs directory (outcomes.filterMap Except.toOption) =
      (.ok (), (manifest.conclude fs directory outcomes).2) := by
  cases hheader : manifest.writeHeader fs directory (outcomes.filterMap Except.toOption) with
  | mk written left =>
    cases written with
    | error failure =>
      exact absurd (congrArg Prod.fst (conclude_of_header_error hheader)) (h failure)
    | ok _ =>
      by_cases hfailures : manifest.failures outcomes = []
      · simp only [conclude, hheader, hfailures]
      · rw [conclude_of_header hheader hfailures]

end Concluding

section Header

variable {manifest : Manifest} {fs last : FileSystem} {directory output : Path}
  {artifacts : List Artifact}

/-- The text of the header that declares the arrays of some artifacts. -/
def headerOf (artifacts : List Artifact) : String :=
  declarationHeader (artifacts.map fun artifact => artifact.symbol)

/-- Whether the header and another path lead to one file. -/
def HeaderAt (manifest : Manifest) (last : FileSystem) (directory output : Path) : Prop :=
  ∃ header ∈ manifest.header, ∃ found,
    last.locate (directory.join header) = .ok found ∧ last.locate output = .ok found

/-- Where there is a header to write, it is what stands at its place, and no
other file has changed. -/
theorem exists_changes_of_writeHeader
    (h : manifest.writeHeader fs directory artifacts = (.ok (), last)) :
    ∃ places, Changes fs last places ∧
      (∀ header ∈ manifest.header, ∃ place ∈ places,
        last.locate (directory.join header) = .ok (place, .file (headerOf artifacts).toUTF8)) ∧
      ∀ place ∈ places, ∃ header ∈ manifest.header,
        last.locate (directory.join header) = .ok (place, .file (headerOf artifacts).toUTF8) := by
  unfold writeHeader at h
  cases hheader : manifest.header with
  | none =>
    rw [hheader] at h
    cases h
    exact ⟨[], Changes.refl fs, by simp, by simp⟩
  | some header =>
    rw [hheader] at h
    rcases writeFile_cases fs (directory.join header) (headerOf artifacts).toUTF8 with
      ⟨failure, left, _, hwrite⟩ | ⟨left, target, hgrows, hplace, hwrite⟩
    · cases h.symm.trans hwrite
    · cases h.symm.trans hwrite
      have hlocate := locate_insert_of_place hplace (headerOf artifacts).toUTF8
      refine ⟨[target], hgrows.changes.trans (changes_insert hplace _), ?_, ?_⟩
      · rintro _ ⟨⟩
        exact ⟨target, List.mem_cons_self, hlocate⟩
      · intro place hmem
        rw [List.mem_singleton.mp hmem]
        exact ⟨header, rfl, hlocate⟩

theorem source_ne_headerOf (array : SurfaceArray) (artifacts : List Artifact) :
    array.source.toUTF8 ≠ (headerOf artifacts).toUTF8 := by
  -- both texts start with one banner; after it the one has a comment, the other a blank line
  have hsource : ∃ rest : List Char,
      array.source.toList = generatedBanner.toList ++ '\n' :: '/' :: rest := by
    unfold SurfaceArray.source SurfaceArray.lines SurfaceArray.bannerLines
    cases array.sourceName <;> simp [unlines_cons]
  have hheader : ∃ rest : List Char,
      (headerOf artifacts).toList = generatedBanner.toList ++ '\n' :: '\n' :: rest := by
    unfold headerOf declarationHeader
    simp [unlines_cons]
  obtain ⟨rest, hsource⟩ := hsource
  obtain ⟨rest', hheader⟩ := hheader
  intro h
  rw [String.toByteArray_inj.mp h, hheader] at hsource
  have htail := List.append_cancel_left hsource
  simp at htail

/-- A file of a mesh holds its text still, unless the header leads there too. -/
theorem read_eq_iff_not_headerAt {array : SurfaceArray} {place : Location}
    (h : manifest.writeHeader fs directory artifacts = (.ok (), last))
    (hlocate : fs.locate output = .ok (place, .file array.source.toUTF8)) :
    last.read output = .ok array.source.toUTF8 ↔ ¬manifest.HeaderAt last directory output := by
  obtain ⟨places, hchanges, hheader, hplaces⟩ := exists_changes_of_writeHeader h
  constructor
  · rintro hread ⟨header, hmem, found, hfound, houtput⟩
    obtain ⟨place', _, hwritten⟩ := hheader header hmem
    rw [hwritten] at hfound
    cases hfound
    rw [read_of_locate houtput] at hread
    exact source_ne_headerOf array artifacts (Except.ok.inj hread).symm
  · intro hno
    refine read_of_locate (hchanges.keeps.locate_of_ok hlocate fun hmem => hno ?_)
    obtain ⟨header, hin, hwritten⟩ := hplaces place hmem
    exact ⟨header, hin, _, hwritten,
      hchanges.keeps.locate_of_file hlocate (lookup_of_locate hwritten)⟩

end Header

section Orders

variable {manifest : Manifest} {order : List Nat}

theorem perm_range_jobs (horder : order.Perm (List.range manifest.meshes.length))
    (directory : Path) :
    order.Perm (List.range (manifest.meshes.map (manifest.job directory)).length) := by
  rwa [List.length_map]

/-- The jobs of a build in an order of the numbers of the meshes. -/
def jobsInOrder (manifest : Manifest) (directory : Path) (order : List Nat) : List Job :=
  order.filterMap fun i => (manifest.meshes.map (manifest.job directory))[i]?

/-- The outcome of each mesh is that of its turn. -/
theorem forall₂_turns (horder : order.Perm (List.range manifest.meshes.length)) (base : FileSystem)
    (directory : Path) :
    List.Forall₂ (fun mesh outcome => ∃ done todo,
        manifest.jobsInOrder directory order = done ++ manifest.job directory mesh :: todo ∧
        outcome = ((manifest.job directory mesh).run (runJobs base done).2).1)
      manifest.meshes (manifest.convertInOrder base directory order).1 := by
  have hturns : List.Forall₂ (fun job outcome => ∃ done todo,
        manifest.jobsInOrder directory order = done ++ job :: todo ∧
        outcome = (job.run (runJobs base done).2).1)
      (manifest.jobsInOrder directory order)
      (runJobs base (manifest.jobsInOrder directory order)).1 :=
    Job.forall₂_runJobs fun before job after hsplit => ⟨before, after, hsplit, rfl⟩
  exact List.forall₂_map_left_iff.mp
    (Batch.forall₂_outcomes (perm_range_jobs horder directory) hturns)

theorem length_convertInOrder (horder : order.Perm (List.range manifest.meshes.length))
    (base : FileSystem) (directory : Path) :
    (manifest.convertInOrder base directory order).1.length = manifest.meshes.length :=
  (forall₂_turns horder base directory).length_eq.symm

end Orders

section Delivery

variable {manifest : Manifest} {fs base last : FileSystem} {directory path : Path}
  {order : List Nat} {mesh : String × MeshEntry} {artifact : Artifact} {artifacts : List Artifact}

/-- What a mesh is converted to in its turn, when the jobs before it are done. -/
def ConvertedInTurn (manifest : Manifest) (base : FileSystem) (directory : Path) (order : List Nat)
    (mesh : String × MeshEntry) (conversion : Conversion) : Prop :=
  ∃ done todo, manifest.jobsInOrder directory order = done ++ manifest.job directory mesh :: todo ∧
    (runJobs base done).2.convert (mesh.2.options mesh.1 manifest.defaults)
      (manifest.sourcePath mesh.2) = .ok conversion

/-- What is reported about a mesh, and what is at the end in the file that it names. -/
structure Delivers (manifest : Manifest) (base last : FileSystem) (directory : Path)
    (order : List Nat) (mesh : String × MeshEntry) (artifact : Artifact) : Prop where
  symbol : artifact.symbol = mesh.1
  path : artifact.path = outputPath directory mesh.1
  file : ∃ (conversion : Conversion) (array : SurfaceArray),
    manifest.ConvertedInTurn base directory order mesh conversion ∧
    artifact = conversion.artifact (outputPath directory mesh.1) ∧
    array.source = conversion.source ∧ array.symbol = artifact.symbol ∧
    array.records.length = artifact.recordCount ∧
    (last.read artifact.path = .ok conversion.source.toUTF8 ↔
      ¬manifest.HeaderAt last directory artifact.path)

theorem destination_ne (hname : Identifier.isIdentifier mesh.1 = true) {other : String × MeshEntry}
    (hother : Identifier.isIdentifier other.1 = true) (hne : mesh.1 ≠ other.1) :
    (manifest.job directory mesh).destination base ≠
      (manifest.job directory other).destination base := by
  intro heq
  rw [Job.destination, Job.destination, output_job, output_job] at heq
  exact hne (outputName_injective
    (Path.eq_of_destination_join (isName_outputName hname) (isName_outputName hother) heq))

theorem pairwise_destination_ne (hload : (manifest.meshes.map Prod.fst).Pairwise (· < ·))
    (hnames : ∀ mesh ∈ manifest.meshes, Identifier.isIdentifier mesh.1 = true)
    (horder : order.Perm (List.range manifest.meshes.length)) :
    (manifest.jobsInOrder directory order).Pairwise fun a b =>
      a.destination base ≠ b.destination base := by
  refine ((Batch.perm_filterMap_getElem? (perm_range_jobs horder directory)).pairwise_iff
    fun {_ _} h => h.symm).mpr ?_
  rw [List.pairwise_map]
  refine List.Pairwise.imp_of_mem ?_ (List.pairwise_map.mp hload)
  intro a b ha hb hlt
  refine destination_ne (hnames a ha) (hnames b hb) ?_
  intro heq
  exact String.lt_irrefl _ (heq ▸ hlt)

theorem delivers_of_turn (hname : Identifier.isIdentifier mesh.1 = true)
    (hpairs : (manifest.jobsInOrder directory order).Pairwise fun a b =>
      a.destination base ≠ b.destination base)
    {done todo : List Job}
    (hsplit : manifest.jobsInOrder directory order = done ++ manifest.job directory mesh :: todo)
    (hturn : ((manifest.job directory mesh).run (runJobs base done).2).1 = .ok artifact)
    (hheader : manifest.writeHeader (runJobs base (manifest.jobsInOrder directory order)).2
      directory artifacts = (.ok (), last)) :
    manifest.Delivers base last directory order mesh artifact := by
  -- no job that comes later has the place of this mesh, so only the header can
  -- still be written there
  have hafter : ∀ later ∈ todo,
      later.destination base ≠ (manifest.job directory mesh).destination base := by
    intro later hlater
    rw [hsplit, List.pairwise_append, List.pairwise_cons] at hpairs
    exact (hpairs.2.1.1 later hlater).symm
  obtain ⟨conversion, hconvert, rfl, hlocate⟩ := Job.locate_of_run hturn hafter
  rw [← hsplit, output_job] at hlocate
  rw [options_job, input_job] at hconvert
  rw [output_job]
  have hvalid := valid_of_convert hconvert
  have hsymbol : conversion.symbol = mesh.1 := hvalid.symbol_eq.trans (symbolFor_options hname _ _)
  rw [hvalid.source] at hlocate
  have hread := read_eq_iff_not_headerAt hheader hlocate
  rw [← hvalid.source] at hread
  exact ⟨hsymbol, rfl, conversion, _, ⟨done, todo, hsplit, hconvert⟩, rfl, hvalid.source.symm, rfl,
    rfl, hread⟩

/-- A manifest that is loaded and accepted, with any header, into any directory, in any order of its
meshes: if the build succeeds, there is an artifact for each mesh, the file at its path holds the
text that the mesh was converted to, unless the header leads to that file, and the header holds the
declarations of all artifacts. -/
theorem buildInOrder_delivers (instead : Option Path) (hload : Manifest.load fs path = .ok manifest)
    (hvalid : manifest.validate fs = .ok ())
    (horder : order.Perm (List.range manifest.meshes.length))
    (h : manifest.buildInOrder fs instead order = (.ok artifacts, last)) :
    let directory := manifest.outputDirectory instead
    let base := (fs.makeDirectories directory).2
    List.Forall₂ (manifest.Delivers base last directory order) manifest.meshes artifacts ∧
      (∀ header ∈ manifest.header,
        last.read (directory.join header) = .ok (headerOf artifacts).toUTF8) ∧
      manifest.buildInOrder fs instead (List.range manifest.meshes.length) =
        manifest.build fs instead := by
  intro directory base
  have hnames := fun mesh hmem => (buildable_of_validate hvalid mesh hmem).name
  have hpairs : (manifest.jobsInOrder directory order).Pairwise fun a b =>
      a.destination base ≠ b.destination base :=
    pairwise_destination_ne (ascending_of_load hload) hnames horder
  have houtcomes := forall₂_turns horder base directory
  obtain ⟨hok, hheader⟩ : (manifest.convertInOrder base directory order).1 = artifacts.map .ok ∧
      manifest.writeHeader (manifest.convertInOrder base directory order).2 directory artifacts =
        (.ok (), last) := by
    cases hmade : fs.makeDirectories directory with
    | mk outcome left =>
      have hbase : base = left := congrArg Prod.snd hmade
      cases outcome with
      | error fault =>
        rw [buildInOrder_of_refused order hmade] at h
        cases h
      | ok _ =>
        rw [buildInOrder_of_makeDirectories order hmade, ← hbase] at h
        exact conclude_eq_ok (length_convertInOrder horder base directory) h
  rw [hok, List.forall₂_map_right_iff] at houtcomes
  refine ⟨?_, ?_, manifest.buildInOrder_range fs instead⟩
  · refine ((List.forall₂_and_left _ _).mpr ⟨hnames, houtcomes⟩).imp ?_
    rintro mesh artifact ⟨hname, done, todo, hsplit, hturn⟩
    exact delivers_of_turn hname hpairs hsplit hturn.symm hheader
  · intro header hmem
    obtain ⟨_, _, hwritten, _⟩ := exists_changes_of_writeHeader hheader
    obtain ⟨_, _, hlocate⟩ := hwritten header hmem
    exact read_of_locate hlocate

/-- A manifest of one mesh, with a header of its own choice. -/
def headedMesh (header : String) : FileSystem :=
  ⟨[(["m.toml"],
    .file ("[output]\nheader = \"" ++ header ++ "\"\n[meshes]\nhill = \"a.obj\"\n").toUTF8),
    (["a.obj"], .file "v 0 0 0\nv 1 0 0\nv 0 1 0\nf 1 2 3\n".toUTF8)], []⟩

def headedManifest (header : String) : Manifest :=
  ⟨⟨""⟩, ⟨"collision/"⟩, some ⟨header⟩, Options.default, [("hill", ⟨⟨"a.obj"⟩, {}⟩)]⟩

theorem exists_of_map_fst {built : Except ManifestFault (List Artifact) × FileSystem}
    {paths : List Path}
    (h : built.1.map (fun artifacts => artifacts.map Artifact.path) = .ok paths) :
    ∃ artifacts last, built = (.ok artifacts, last) ∧ artifacts.map Artifact.path = paths := by
  obtain ⟨artifacts, hbuilt, hpaths⟩ := exists_of_map_eq_ok h
  exact ⟨artifacts, built.2, Prod.ext hbuilt rfl, hpaths⟩

/-- A header beside the files of the meshes does no harm. -/
theorem buildInOrder_delivers_beside :
    let manifest := headedManifest "all.h"
    let fs := headedMesh "all.h"
    let directory := manifest.outputDirectory none
    let base := (fs.makeDirectories directory).2
    Manifest.load fs ⟨"m.toml"⟩ = .ok manifest ∧ manifest.validate fs = .ok () ∧
      ∃ artifacts last, manifest.build fs none = (.ok artifacts, last) ∧
        artifacts.map Artifact.path = [⟨"collision/hill_surfaces.c"⟩] ∧
        List.Forall₂ (manifest.Delivers base last directory [0]) manifest.meshes artifacts ∧
        ¬manifest.HeaderAt last directory ⟨"collision/hill_surfaces.c"⟩ := by
  intro manifest fs directory base
  have hload : Manifest.load fs ⟨"m.toml"⟩ = .ok manifest := by decide +kernel
  have hvalid : manifest.validate fs = .ok () := by decide +kernel
  have hbuild : manifest.buildInOrder fs none [0] = manifest.build fs none :=
    manifest.buildInOrder_range fs none
  obtain ⟨artifacts, last, hbuilt, hpaths⟩ := exists_of_map_fst
    (show ((manifest.build fs none).1.map fun artifacts => artifacts.map Artifact.path) =
      .ok [⟨"collision/hill_surfaces.c"⟩] by decide +kernel)
  have hplaces : ((manifest.build fs none).2.locate (directory.join ⟨"all.h"⟩)).map Prod.fst ≠
      ((manifest.build fs none).2.locate ⟨"collision/hill_surfaces.c"⟩).map Prod.fst := by
    decide +kernel
  refine ⟨hload, hvalid, artifacts, last, hbuilt, hpaths,
    (buildInOrder_delivers none hload hvalid (by decide) (hbuild.trans hbuilt)).1, ?_⟩
  rintro ⟨_, ⟨⟩, found, hheader, houtput⟩
  rw [hbuilt] at hplaces
  exact hplaces (by rw [hheader, houtput])

/-- A header with the name of the file of a mesh takes its place, and the build succeeds. -/
theorem build_ok_without_source :
    let manifest := headedManifest "hill_surfaces.c"
    let fs := headedMesh "hill_surfaces.c"
    Manifest.load fs ⟨"m.toml"⟩ = .ok manifest ∧ manifest.validate fs = .ok () ∧
      ∃ artifacts last, manifest.build fs none = (.ok artifacts, last) ∧
        artifacts.map Artifact.path = [⟨"collision/hill_surfaces.c"⟩] ∧
        ∀ array : SurfaceArray, last.read ⟨"collision/hill_surfaces.c"⟩ ≠
          .ok array.source.toUTF8 := by
  intro manifest fs
  obtain ⟨artifacts, last, hbuilt, hpaths⟩ := exists_of_map_fst
    (show ((manifest.build fs none).1.map fun artifacts => artifacts.map Artifact.path) =
      .ok [⟨"collision/hill_surfaces.c"⟩] by decide +kernel)
  have hmade : (fs.makeDirectories (manifest.outputDirectory none)).1 = .ok () := by decide +kernel
  have hbuild := hbuilt
  rw [← manifest.buildInOrder_range fs none,
    buildInOrder_of_makeDirectories _ (Prod.ext hmade rfl)] at hbuild
  obtain ⟨_, hheader⟩ := conclude_eq_ok (length_convertInOrder (List.Perm.refl _) _ _) hbuild
  obtain ⟨_, _, hwritten, _⟩ := exists_changes_of_writeHeader hheader
  obtain ⟨place, _, hlocate⟩ := hwritten ⟨"hill_surfaces.c"⟩ rfl
  have hpath : (manifest.outputDirectory none).join ⟨"hill_surfaces.c"⟩ =
      ⟨"collision/hill_surfaces.c"⟩ := by
    decide +kernel
  rw [hpath] at hlocate
  refine ⟨by decide +kernel, by decide +kernel, artifacts, last, hbuilt, hpaths,
    fun array hread => ?_⟩
  rw [read_of_locate hlocate] at hread
  exact source_ne_headerOf array artifacts (Except.ok.inj hread).symm

end Delivery

section Failures

variable {manifest : Manifest} {fs base : FileSystem} {path : Path} {order : List Nat}
  {outcomes : List (Except Failure Artifact)}

/-- A report on outcomes of the meshes that names those that failed, all of
them, in ascending order. -/
structure Reports (manifest : Manifest) (outcomes : List (Except Failure Artifact))
    (failures : List (String × Failure)) : Prop where
  mem_iff : ∀ name failure, (name, failure) ∈ failures ↔
    ∃ entry, ((name, entry), .error failure) ∈ manifest.meshes.zip outcomes
  ascending : (failures.map Prod.fst).Pairwise (· < ·)
  length : failures.length = outcomes.countP fun outcome => !outcome.isOk
  message : (ManifestFault.failedMeshes manifest.meshes.length failures).message =
    failures.length.repr ++ " of " ++ manifest.meshes.length.repr ++ " meshes failed:\n" ++
      "\n".intercalate (failures.map fun entry => entry.1 ++ ": " ++ entry.2.message)

theorem map_name_zip (h : outcomes.length = manifest.meshes.length) :
    ((manifest.meshes.zip outcomes).map fun entry => entry.1.1) = manifest.meshes.map Prod.fst := by
  have hzip : (manifest.meshes.zip outcomes).map Prod.fst = manifest.meshes :=
    List.map_fst_zip (Nat.le_of_eq h.symm)
  conv => rhs; rw [← hzip, List.map_map]
  rfl

theorem reports_failures (hload : (manifest.meshes.map Prod.fst).Pairwise (· < ·))
    (hlength : outcomes.length = manifest.meshes.length) :
    manifest.Reports outcomes (manifest.failures outcomes) where
  mem_iff := by
    intro name failure
    rw [failures, List.mem_filterMap]
    constructor
    · rintro ⟨⟨⟨other, entry⟩, outcome⟩, hmem, hnamed⟩
      cases outcome with
      | ok artifact => cases hnamed
      | error cause =>
        cases hnamed
        exact ⟨entry, hmem⟩
    · rintro ⟨entry, hmem⟩
      exact ⟨_, hmem, rfl⟩
  ascending := by
    rw [← map_name_zip hlength, List.pairwise_map] at hload
    rw [List.pairwise_map, failures, List.pairwise_filterMap]
    refine hload.imp ?_
    rintro ⟨mesh, outcome⟩ ⟨mesh', outcome'⟩ hlt named hnamed named' hnamed'
    cases outcome <;> cases hnamed
    cases outcome' <;> cases hnamed'
    exact hlt
  length := by
    have hzip : (manifest.meshes.zip outcomes).map Prod.snd = outcomes :=
      List.map_snd_zip (Nat.le_of_eq hlength)
    rw [failures, List.length_filterMap_eq_countP]
    conv => rhs; rw [← hzip, List.countP_map]
    refine List.countP_congr ?_
    rintro ⟨mesh, outcome⟩ _
    cases outcome <;> simp [Except.isOk, Except.toBool]
  message := rfl

/-- A manifest that is loaded, with any header, into a directory that can be made, in any order of
its meshes: if some meshes fail, the build names all of them just if the header is written. If that
fails, the failure is told of the header alone. -/
theorem buildInOrder_reports_iff (instead : Option Path)
    (hload : Manifest.load fs path = .ok manifest)
    (hmade : fs.makeDirectories (manifest.outputDirectory instead) = (.ok (), base))
    (horder : order.Perm (List.range manifest.meshes.length))
    (hfails : ∃ failure,
      .error failure ∈ (manifest.convertInOrder base (manifest.outputDirectory instead) order).1) :
    let directory := manifest.outputDirectory instead
    let ran := manifest.convertInOrder base directory order
    let header := (manifest.writeHeader ran.2 directory (ran.1.filterMap Except.toOption)).1
    let built := (manifest.buildInOrder fs instead order).1
    ((∃ failures, built = .error (.failedMeshes manifest.meshes.length failures) ∧
        manifest.Reports ran.1 failures) ↔ header = .ok ()) ∧
      (∀ failure, header = .error failure → built = .error (.header failure)) ∧
      manifest.buildInOrder fs instead (List.range manifest.meshes.length) =
        manifest.build fs instead := by
  intro directory ran header built
  have hlength : ran.1.length = manifest.meshes.length :=
    length_convertInOrder horder base directory
  have hnonempty : manifest.failures ran.1 ≠ [] := by
    obtain ⟨failure, hmem⟩ := hfails
    intro hnil
    cases (failures_eq_nil_iff hlength).mp hnil _ hmem
  have hbuilt : built = (manifest.conclude ran.2 directory ran.1).1 := by
    rw [← buildInOrder_of_makeDirectories order hmade]
  cases hwritten : manifest.writeHeader ran.2 directory (ran.1.filterMap Except.toOption) with
  | mk written left =>
    have hheader : header = written := congrArg Prod.fst hwritten
    cases written with
    | error failure =>
      rw [conclude_of_header_error hwritten] at hbuilt
      rw [hheader, hbuilt]
      refine ⟨iff_of_false ?_ nofun, ?_, manifest.buildInOrder_range fs instead⟩
      · rintro ⟨_, ⟨⟩, _⟩
      · rintro _ ⟨⟩
        rfl
    | ok _ =>
      rw [conclude_of_header hwritten hnonempty] at hbuilt
      rw [hheader, hbuilt]
      exact ⟨iff_of_true ⟨_, rfl, reports_failures (ascending_of_load hload) hlength⟩ rfl, nofun,
        manifest.buildInOrder_range fs instead⟩

/-- A manifest of a mesh that fails and one that does not, with a header of its own choice. -/
def halfBroken (header : String) : FileSystem :=
  ⟨[(["m.toml"],
      .file ("[output]\nheader = \"" ++ header ++
        "\"\n[meshes]\nbad = \"b.obj\"\nhill = \"a.obj\"\n").toUTF8),
    (["a.obj"], .file "v 0 0 0\nv 1 0 0\nv 0 1 0\nf 1 2 3\n".toUTF8),
    (["b.obj"], .file "v 0 0 0\nf 1 2 3\n".toUTF8), (["collision"], .directory),
    (["collision", "include"], .directory)], []⟩

def halfBrokenManifest (header : String) : Manifest :=
  ⟨⟨""⟩, ⟨"collision/"⟩, some ⟨header⟩, Options.default,
    [("bad", ⟨⟨"b.obj"⟩, {}⟩), ("hill", ⟨⟨"a.obj"⟩, {}⟩)]⟩

/-- A header in a directory that is there is written, and the mesh that fails is named. -/
theorem buildInOrder_reports_iff_written :
    let manifest := halfBrokenManifest "include/all.h"
    let fs := halfBroken "include/all.h"
    let base := (fs.makeDirectories (manifest.outputDirectory none)).2
    Manifest.load fs ⟨"m.toml"⟩ = .ok manifest ∧
      fs.makeDirectories (manifest.outputDirectory none) = (.ok (), base) ∧
      ∃ failures, (manifest.build fs none).1 = .error (.failedMeshes 2 failures) ∧
        manifest.Reports (manifest.convertInOrder base (manifest.outputDirectory none) [0, 1]).1
          failures ∧
        ("bad", .vertexOutOfRange ⟨"b.obj"⟩ 2 2 1) ∈ failures := by
  intro manifest fs base
  have hload : Manifest.load fs ⟨"m.toml"⟩ = .ok manifest := by decide +kernel
  have hmade : fs.makeDirectories (manifest.outputDirectory none) = (.ok (), base) :=
    Prod.ext (by decide +kernel) rfl
  have hbad : (("bad", ⟨⟨"b.obj"⟩, {}⟩), .error (.vertexOutOfRange ⟨"b.obj"⟩ 2 2 1)) ∈
      manifest.meshes.zip
        (manifest.convertInOrder base (manifest.outputDirectory none) [0, 1]).1 := by
    decide +kernel
  obtain ⟨hreports, _, hbuild⟩ :=
    buildInOrder_reports_iff none hload hmade (by decide) ⟨_, (List.of_mem_zip hbad).2⟩
  obtain ⟨failures, hbuilt, hnamed⟩ := hreports.mpr (by decide +kernel)
  rw [← hbuild]
  exact ⟨hload, hmade, failures, hbuilt, hnamed, (hnamed.mem_iff _ _).mpr ⟨_, hbad⟩⟩

/-- A header that cannot be written hides the mesh that failed. -/
theorem build_hides_failure :
    let manifest := halfBrokenManifest "include"
    let fs := halfBroken "include"
    let base := (fs.makeDirectories (manifest.outputDirectory none)).2
    Manifest.load fs ⟨"m.toml"⟩ = .ok manifest ∧ manifest.validate fs = .ok () ∧
      (fs.makeDirectories (manifest.outputDirectory none)).1 = .ok () ∧
      (manifest.convertInOrder base (manifest.outputDirectory none) [0, 1]).1.map Except.isOk =
        [false, true] ∧
      (manifest.build fs none).1 = .error (.header (.ofSystem ⟨"collision/include"⟩ .isDirectory)) ∧
      (ManifestFault.header (.ofSystem ⟨"collision/include"⟩ .isDirectory)).message =
        "collision/include: Is a directory (os error 21)" := by
  decide +kernel

end Failures

end Manifest

end CollisionMesh
