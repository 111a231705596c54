import CollisionMesh.Proofs.AskedOptions
import CollisionMesh.Proofs.ManifestHeader

/-!
# Routes to a generated file

A mesh file can be converted by a command of its own, as the only mesh of a manifest, or as a batch
of one. Each route puts the options together in its own way and has its own path for the output;
with the same overrides and symbol they compute the same.
-/

namespace CollisionMesh

set_option autoImplicit false

open CommandLine (Asks exists_asks run_of_asks)
open FileSystem

section Conversions

variable {fs left left' : FileSystem} {computed : Except Failure Conversion} {output output' : Path}
  {artifact : Artifact} {ran : Except Failure Artifact × FileSystem}

/-- What comes of a conversion whose result is to be put at a path. -/
inductive Publishes (fs : FileSystem) (computed : Except Failure Conversion) (output : Path) :
    Except Failure Artifact × FileSystem → Prop
  | failed {failure : Failure} (convert : computed = .error failure) :
      Publishes fs computed output (.error failure, fs)
  | written {conversion : Conversion} {left : FileSystem} {target : Location}
      (convert : computed = .ok conversion)
      (locate : left.locate output = .ok (target, .file conversion.source.toUTF8)) :
      Publishes fs computed output (.ok (conversion.artifact output), left)
  | unwritten {conversion : Conversion} {failure : Failure} {left : FileSystem}
      (convert : computed = .ok conversion)
      (write : fs.writeFile output conversion.source.toUTF8 = (.error failure, left)) :
      Publishes fs computed output (.error failure, left)

theorem publishes_convertTo (fs : FileSystem) (options : Options) (input output : Path) :
    Publishes fs (fs.convert options input) output (fs.convertTo options input output) := by
  unfold convertTo
  cases hconvert : fs.convert options input with
  | error failure => exact .failed rfl
  | ok conversion =>
    simp only [Except.map, publish]
    rcases writeFile_cases fs output conversion.source.toUTF8 with
      ⟨failure, left, _, hwrite⟩ | ⟨left, target, _, hplace, hwrite⟩
    · rw [hwrite]
      exact .unwritten rfl hwrite
    · rw [hwrite]
      exact .written rfl (locate_insert_of_place hplace _)

namespace Publishes

theorem error (h : Publishes fs computed output ran) {failure : Failure}
    (hcomputed : computed = .error failure) :
    ran = (.error failure, fs) := by
  subst hcomputed
  cases h with
  | failed convert =>
    cases convert
    rfl
  | written convert => cases convert
  | unwritten convert => cases convert

/-- What was converted cannot be written, or it is. -/
theorem ok (h : Publishes fs computed output ran) {conversion : Conversion}
    (hcomputed : computed = .ok conversion) :
    (∃ failure, ran.1 = .error failure ∧
      (fs.writeFile output conversion.source.toUTF8).1 = .error failure) ∨
      ran.1 = .ok (conversion.artifact output) ∧
        ∃ target, ran.2.locate output = .ok (target, .file conversion.source.toUTF8) := by
  subst hcomputed
  cases h with
  | failed convert => cases convert
  | written convert locate =>
    cases convert
    exact .inr ⟨rfl, _, locate⟩
  | unwritten convert write =>
    cases convert
    exact .inl ⟨_, rfl, by rw [write]⟩

theorem locate (h : Publishes fs computed output ran) {conversion : Conversion}
    (hcomputed : computed = .ok conversion) {artifact : Artifact} (hran : ran.1 = .ok artifact) :
    artifact = conversion.artifact output ∧
      ∃ target, ran.2.locate output = .ok (target, .file conversion.source.toUTF8) := by
  rcases h.ok hcomputed with ⟨_, hfailure, _⟩ | ⟨hok, hlocate⟩
  · cases hran.symm.trans hfailure
  · exact ⟨Except.ok.inj (hran.symm.trans hok), hlocate⟩

end Publishes

/-- Generated files with the same bytes, and the same to report about them. -/
structure SameFile (left left' : FileSystem) (artifact artifact' : Artifact) : Prop where
  bytes : ∃ content, left.read artifact.path = .ok content ∧ left'.read artifact'.path = .ok content
  symbol : artifact.symbol = artifact'.symbol
  recordCount : artifact.recordCount = artifact'.recordCount
  clampedComponents : artifact.clampedComponents = artifact'.clampedComponents
  skippedFaces : artifact.skippedFaces = artifact'.skippedFaces
  skippedVertices : artifact.skippedVertices = artifact'.skippedVertices

theorem sameFile_iff {conversion : Conversion}
    (h : left.read output = .ok conversion.source.toUTF8) :
    SameFile left left' (conversion.artifact output) (conversion.artifact output') ↔
      left'.read output' = .ok conversion.source.toUTF8 := by
  constructor
  · rintro ⟨⟨content, hcontent, hcontent'⟩, _⟩
    rw [← h]
    exact hcontent'.trans hcontent.symm
  · exact fun h' => ⟨⟨_, h, h'⟩, rfl, rfl, rfl, rfl, rfl⟩

end Conversions

namespace Manifest

section Single

variable {manifest : Manifest} {fs base last : FileSystem} {directory : Path}
  {instead : Option Path} {mesh : String × MeshEntry} {computed : Except Failure Conversion}

/-- A build that fails for something else that it cannot write: the output
directory, or the header. -/
inductive FailsBeside (manifest : Manifest) (fs : FileSystem) (directory : Path) :
    Except ManifestFault (List Artifact) → Prop
  | directory {fault : SystemFault} (made : (fs.makeDirectories directory).1 = .error fault) :
      FailsBeside manifest fs directory (.error (.noDirectory directory fault))
  | header {header : Path} {failure : Failure} {left : FileSystem} {content : ByteArray}
      (mem : header ∈ manifest.header)
      (write : (left.writeFile (directory.join header) content).1 = .error failure) :
      FailsBeside manifest fs directory (.error (.header failure))

/-- The outcome of a build with one mesh, by that of the mesh. -/
def single (name : String) : Except Failure Artifact → Except ManifestFault (List Artifact)
  | .ok artifact => .ok [artifact]
  | .error failure => .error (.failedMeshes 1 [(name, failure)])

theorem runJobs_single (hmeshes : manifest.meshes = [mesh]) (fs : FileSystem) (directory : Path) :
    let ran := fs.convertTo (mesh.2.options mesh.1 manifest.defaults) (manifest.sourcePath mesh.2)
      (outputPath directory mesh.1)
    runJobs fs (manifest.meshes.map (manifest.job directory)) = ([ran.1], ran.2) := by
  intro ran
  simp only [hmeshes, List.map_cons, List.map_nil, runJobs, Job.run, refusal_job, options_job,
    input_job, output_job]
  rfl

theorem build_of_makeDirectories (hmeshes : manifest.meshes = [mesh])
    (h : fs.makeDirectories (manifest.outputDirectory instead) = (.ok (), base)) :
    let ran := base.convertTo (mesh.2.options mesh.1 manifest.defaults) (manifest.sourcePath mesh.2)
      (outputPath (manifest.outputDirectory instead) mesh.1)
    manifest.build fs instead =
      manifest.conclude ran.2 (manifest.outputDirectory instead) [ran.1] := by
  intro ran
  simp only [build, h, runJobs_single hmeshes]
  rfl

theorem conclude_single (hmeshes : manifest.meshes = [mesh]) (fs base : FileSystem)
    (directory : Path) (outcome : Except Failure Artifact) :
    manifest.FailsBeside fs directory (manifest.conclude base directory [outcome]).1 ∨
      (manifest.conclude base directory [outcome]).1 = single mesh.1 outcome := by
  cases hheader : manifest.writeHeader base directory ([outcome].filterMap Except.toOption) with
  | mk written left =>
    cases written with
    | error failure =>
      rw [conclude_of_header_error hheader]
      unfold writeHeader at hheader
      split at hheader
      · cases hheader
      · rename_i header hsome
        exact .inl (.header hsome (congrArg Prod.fst hheader))
    | ok _ =>
      refine .inr ?_
      unfold conclude
      cases outcome with
      | ok artifact =>
        simp only [hheader, failures, hmeshes, single]
        rfl
      | error failure =>
        simp only [hheader, failures, hmeshes, single]
        rfl

end Single

/-- What two routes make of one mesh file: a conversion to a path, and a build of a
manifest with that mesh. -/
structure RoutesAgree (manifest : Manifest) (fs : FileSystem) (directory : Path) (name : String)
    (computed : Except Failure Conversion) (target : Path)
    (ran : Except Failure Artifact × FileSystem)
    (built : Except ManifestFault (List Artifact) × FileSystem) : Prop where
  failed : ∀ failure, computed = .error failure → ran.1 = .error failure ∧
    (manifest.FailsBeside fs directory built.1 ∨
      built.1 = .error (.failedMeshes 1 [(name, failure)]))
  converted : ∀ conversion, computed = .ok conversion →
    (∃ failure, ran.1 = .error failure ∧
      (fs.writeFile target conversion.source.toUTF8).1 = .error failure) ∨
      ran.1 = .ok (conversion.artifact target)
  build : ∀ conversion, computed = .ok conversion →
    manifest.FailsBeside fs directory built.1 ∨
      built.1 = .ok [conversion.artifact (outputPath directory name)] ∨
      ∃ base failure, fs.makeDirectories directory = (.ok (), base) ∧
        built.1 = .error (.failedMeshes 1 [(name, failure)]) ∧
        (base.writeFile (outputPath directory name) conversion.source.toUTF8).1 = .error failure
  -- the same file is written; nothing but the header comes after it
  files : ∀ artifact artifacts, ran.1 = .ok artifact → built.1 = .ok artifacts →
    ∃ other base, artifacts = [other] ∧ artifact.path = target ∧
      other.path = outputPath directory name ∧
      fs.makeDirectories directory = (.ok (), base) ∧
      SameFile ran.2 (runJobs base (manifest.meshes.map (manifest.job directory))).2
        artifact other ∧
      (SameFile ran.2 built.2 artifact other ↔ ¬manifest.HeaderAt built.2 directory other.path)

section Agreement

variable {manifest : Manifest} {fs base : FileSystem} {instead : Option Path}
  {mesh : String × MeshEntry} {options : Options} {input target : Path}

theorem read_of_makeDirectories {p : Path} {outcome : Except SystemFault Unit} {content : ByteArray}
    (hmade : fs.makeDirectories p = (outcome, base)) (hread : fs.read input = .ok content) :
    base.read input = fs.read input := by
  refine read_of_keeps (grows_makeDirectories hmade).keeps ?_ (by simp)
  intro hlocate
  rw [FileSystem.read, hlocate] at hread
  cases hread

/-- Of two files with the result of one conversion, the header alone can be
written over the built one. -/
theorem files_of_publishes (hmeshes : manifest.meshes = [mesh]) {directory output : Path}
    {ran meshRan : Except Failure Artifact × FileSystem} {artifact : Artifact}
    {artifacts : List Artifact} (hran : Publishes fs (fs.convert options input) target ran)
    (hmesh : Publishes base (fs.convert options input) output meshRan)
    (hartifact : ran.1 = .ok artifact)
    (hartifacts : (manifest.conclude meshRan.2 directory [meshRan.1]).1 = .ok artifacts) :
    let built := manifest.conclude meshRan.2 directory [meshRan.1]
    ∃ other, artifacts = [other] ∧ artifact.path = target ∧ other.path = output ∧
      SameFile ran.2 meshRan.2 artifact other ∧
      (SameFile ran.2 built.2 artifact other ↔
        ¬manifest.HeaderAt built.2 directory other.path) := by
  intro built
  obtain ⟨houtcomes, hheader⟩ := conclude_eq_ok (by rw [hmeshes]; rfl) (Prod.ext hartifacts rfl)
  obtain ⟨other, rfl, hother⟩ := List.map_eq_singleton_iff.mp houtcomes.symm
  cases hconversion : fs.convert options input with
  | error failure =>
    rw [hran.error hconversion] at hartifact
    cases hartifact
  | ok conversion =>
    obtain ⟨hok, _, hlocate⟩ := hran.locate hconversion hartifact
    obtain ⟨hok', place, hplace⟩ := hmesh.locate hconversion hother.symm
    subst hok hok'
    have hsame := (sameFile_iff (read_of_locate hlocate)).mpr (read_of_locate hplace)
    have hsource := (valid_of_convert hconversion).source
    rw [hsource] at hplace
    have hheaded := read_eq_iff_not_headerAt hheader hplace
    rw [← hsource] at hheaded
    exact ⟨_, rfl, rfl, rfl, hsame, (sameFile_iff (read_of_locate hlocate)).trans hheaded⟩

theorem routesAgree_of_read (hmeshes : manifest.meshes = [mesh])
    (hinput : manifest.sourcePath mesh.2 = input)
    (hoptions : mesh.2.options mesh.1 manifest.defaults = options) {content : ByteArray}
    (hread : fs.read input = .ok content) (target : Path) (instead : Option Path) :
    manifest.RoutesAgree fs (manifest.outputDirectory instead) mesh.1 (fs.convert options input)
      target (fs.convertTo options input target) (manifest.build fs instead) := by
  have hran := publishes_convertTo fs options input target
  have hconverted : ∀ conversion, fs.convert options input = .ok conversion →
      (∃ failure, (fs.convertTo options input target).1 = .error failure ∧
          (fs.writeFile target conversion.source.toUTF8).1 = .error failure) ∨
        (fs.convertTo options input target).1 = .ok (conversion.artifact target) :=
    fun conversion hconversion => (hran.ok hconversion).imp_right And.left
  cases hmade : fs.makeDirectories (manifest.outputDirectory instead) with
  | mk outcome base =>
    cases outcome with
    | error fault =>
      have hbuild : manifest.build fs instead =
          (.error (.noDirectory (manifest.outputDirectory instead) fault), base) := by
        simp only [build, hmade]
      have hbeside : manifest.FailsBeside fs (manifest.outputDirectory instead)
          (.error (.noDirectory (manifest.outputDirectory instead) fault)) :=
        .directory (by rw [hmade])
      rw [hbuild]
      refine ⟨fun failure hfailure => ⟨by rw [hran.error hfailure], .inl hbeside⟩, hconverted,
        fun _ _ => .inl hbeside, fun _ artifacts _ hartifacts => ?_⟩
      cases hartifacts
    | ok _ =>
      have hmesh :=
        publishes_convertTo base options input
          (outputPath (manifest.outputDirectory instead) mesh.1)
      rw [convert_of_read (read_of_makeDirectories hmade hread)] at hmesh
      have hbuild := build_of_makeDirectories hmeshes hmade
      have hjobs := runJobs_single hmeshes base (manifest.outputDirectory instead)
      rw [hinput, hoptions] at hbuild hjobs
      generalize base.convertTo options input
        (outputPath (manifest.outputDirectory instead) mesh.1) = ran at *
      have hsingle := conclude_single hmeshes fs ran.2 (manifest.outputDirectory instead) ran.1
      rw [hbuild]
      refine ⟨fun failure hfailure => ?failed, hconverted, fun conversion hconversion => ?build,
        fun artifact artifacts hartifact hartifacts => ?files⟩
      case failed =>
        rw [hmesh.error hfailure] at hsingle ⊢
        exact ⟨by rw [hran.error hfailure], hsingle⟩
      case build =>
        refine hsingle.imp_right fun hbuilt => ?_
        rcases hmesh.ok hconversion with ⟨failure, hfailure, hwrite⟩ | ⟨hok, _⟩
        · exact .inr ⟨base, failure, hmade, by rw [hbuilt, hfailure, single], hwrite⟩
        · exact .inl (by rw [hbuilt, hok, single])
      case files =>
        obtain ⟨other, hartifacts, hpath, hother, hsame, hlast⟩ :=
          files_of_publishes hmeshes hran hmesh hartifact hartifacts
        exact ⟨other, base, hartifacts, hpath, hother, hmade, by rw [hjobs]; exact hsame, hlast⟩

theorem empty_join (p : Path) : (⟨""⟩ : Path).join p = p := by
  have hempty : (⟨""⟩ : Path).text.toList.isEmpty = true := rfl
  rw [Path.join, hempty]
  split
  · rfl
  · exact congrArg Path.mk (String.empty_append (s := p.text))

theorem run_singleton (fs : FileSystem) (options : Options) (input : Path) :
    Batch.run fs options [input] =
      let ran := fs.convertTo options input (options.outputFor input)
      ([⟨input, ran.1⟩], ran.2) := by
  have hrefusal : Batch.refusal? options [input] input = none := by
    unfold Batch.refusal? Batch.owners
    exact if_neg (Nat.not_lt.mpr (List.length_filter_le _ [input]))
  simp only [Batch.run, Batch.jobs, List.map_cons, List.map_nil, hrefusal, runJobs, Job.run]
  rfl

/-- A mesh file and overrides: a manifest in the working directory whose only mesh they are, and the
command for one file with settings for these overrides and the name of the mesh as its symbol, agree
if the file can be read. A batch of any one input and the command without symbol and output agree
always. There are arguments for the command, whatever the overrides. -/
theorem routes_agree (fs : FileSystem) (input : Path) (overrides : Overrides) :
    (∀ (manifest : Manifest) (name : String) (instead : Option Path) (content : ByteArray),
      manifest.root = ⟨""⟩ → manifest.defaults = Options.default →
      manifest.meshes = [(name, ⟨input, overrides⟩)] → fs.read input = .ok content →
      ∀ arguments output, Asks arguments input overrides (some name) output →
        let options := { overrides.apply Options.default with symbol := some name }
        let target := output.getD (options.outputFor input)
        let ran := fs.convertTo options input target
        CommandLine.run fs ("convert" :: arguments) = (.ofArtifact ran.1, ran.2) ∧
          manifest.RoutesAgree fs (manifest.outputDirectory instead) name (fs.convert options input)
            target ran (manifest.build fs instead)) ∧
    (∀ arguments, Asks arguments input overrides none none →
      let options := overrides.apply Options.default
      let ran := fs.convertTo options input (options.outputFor input)
      CommandLine.run fs ("convert" :: arguments) = (.ofArtifact ran.1, ran.2) ∧
        Batch.run fs options [input] = ([⟨input, ran.1⟩], ran.2)) ∧
    (input.text ≠ "" → ∀ symbol, ∃ arguments, Asks arguments input overrides symbol none) := by
  refine ⟨?build, fun arguments hasks => ?batch,
    fun hinput symbol => exists_asks overrides symbol input hinput⟩
  case build =>
    intro manifest name instead content hroot hdefaults hmeshes hread arguments output hasks
    have hsource : manifest.sourcePath ⟨input, overrides⟩ = input := by
      rw [sourcePath, hroot]
      exact empty_join input
    have hoptions : (⟨input, overrides⟩ : MeshEntry).options name manifest.defaults =
        { overrides.apply Options.default with symbol := some name } := by
      rw [hdefaults]
      rfl
    exact ⟨run_of_asks hasks rfl fs, routesAgree_of_read hmeshes hsource hoptions hread _ instead⟩
  case batch =>
    have hoptions : { overrides.apply Options.default with symbol := none } =
        overrides.apply Options.default := rfl
    have hrun := run_of_asks hasks hoptions fs
    rw [Option.getD_none] at hrun
    exact ⟨hrun, run_singleton fs _ input⟩

/-- A mesh file, and a manifest with all that a mesh may have of its own. -/
def routedMesh : FileSystem :=
  ⟨[(["m.toml"],
      .file ("[meshes.hill]\npath = \"a.obj\"\nscale = 2.5\naxis_map = \"x,z,-y\"\n" ++
        "default_tag = \"ICE\"\ndefault_terrain = \"SNOW\"\non_malformed_vertex = \"skip\"\n" ++
        "tag_binding = \"none\"\ntag_prefix = \"S_\"\n").toUTF8),
    (["a.obj"], .file "v 0 0 0\nv 1 0 0\nv 0 1 0\nf 1 2 3\n".toUTF8)], []⟩

def routedOverrides : Overrides :=
  ⟨some (⟨false, 25, -1⟩ : Decimal).toBinary64, some AxisMap.zUpToYUp, some "ICE", some "SNOW",
    some .skip, some .ignored, some "S_"⟩

def routedManifest : Manifest :=
  ⟨⟨""⟩, ⟨"collision/"⟩, none, Options.default, [("hill", ⟨⟨"a.obj"⟩, routedOverrides⟩)]⟩

/-- The settings for these overrides. -/
def routedArguments : List String :=
  ["a.obj", "-s", "2.5", "--axis=blender", "--surface", "ICE", "--terrain", "SNOW",
    "--on-malformed-vertex", "skip", "--tag-binding", "none", "--tag-prefix", "S_"]

def routedValues : CommandLine.Values :=
  [(.scale, "2.5"), (.axis, "blender"), (.surface, "ICE"), (.terrain, "SNOW"),
    (.onMalformedVertex, "skip"), (.tagBinding, "none"), (.tagPrefix, "S_")]

theorem routes_agree_hill :
    Manifest.load routedMesh ⟨"m.toml"⟩ = .ok routedManifest ∧
      (∃ artifact left other last,
        CommandLine.run routedMesh ("convert" :: routedArguments ++ ["--symbol=hill"]) =
          (.ofArtifact (.ok artifact), left) ∧
        routedManifest.build routedMesh none = (.ok [other], last) ∧
        artifact.path = ⟨"hill_surfaces.c"⟩ ∧ other.path = ⟨"collision/hill_surfaces.c"⟩ ∧
        SameFile left last artifact other) ∧
      (∃ artifact left,
        CommandLine.run routedMesh ("convert" :: routedArguments) =
          (.ofArtifact (.ok artifact), left) ∧
        Batch.run routedMesh (routedOverrides.apply Options.default) [⟨"a.obj"⟩] =
          ([⟨⟨"a.obj"⟩, .ok artifact⟩], left) ∧
        artifact.path = ⟨"a_surfaces.c"⟩) ∧
      ∀ symbol, ∃ arguments, Asks arguments ⟨"a.obj"⟩ routedOverrides symbol none := by
  have hread : routedMesh.read ⟨"a.obj"⟩ = .ok "v 0 0 0\nv 1 0 0\nv 0 1 0\nf 1 2 3\n".toUTF8 := by
    decide +kernel
  obtain ⟨hbuild, hbatch, harguments⟩ := routes_agree routedMesh ⟨"a.obj"⟩ routedOverrides
  refine ⟨by decide +kernel, ?build, ?batch, harguments (by decide)⟩
  case build =>
    have hasks : Asks (routedArguments ++ ["--symbol=hill"]) ⟨"a.obj"⟩ routedOverrides
        (some "hill") none :=
      ⟨routedValues ++ [(.symbol, "hill")], by decide +kernel, by decide, by decide +kernel,
        by decide, rfl⟩
    obtain ⟨hrun, hagree⟩ := hbuild routedManifest "hill" none _ rfl rfl rfl hread _ none hasks
    obtain ⟨artifact, hartifact, hpath⟩ := exists_of_map_eq_ok
      (show ((routedMesh.convertTo
          { routedOverrides.apply Options.default with symbol := some "hill" } ⟨"a.obj"⟩
          ((none : Option Path).getD (Options.outputFor
            { routedOverrides.apply Options.default with symbol := some "hill" }
            ⟨"a.obj"⟩))).1.map Artifact.path) =
        .ok ⟨"hill_surfaces.c"⟩ by decide +kernel)
    obtain ⟨artifacts, last, hbuilt, _⟩ := exists_of_map_fst
      (show ((routedManifest.build routedMesh none).1.map fun artifacts =>
        artifacts.map Artifact.path) = .ok [⟨"collision/hill_surfaces.c"⟩] by decide +kernel)
    obtain ⟨other, _, rfl, _, hother, _, _, hsame⟩ :=
      hagree.files artifact artifacts hartifact (congrArg Prod.fst hbuilt)
    have hbeside : ¬routedManifest.HeaderAt (routedManifest.build routedMesh none).2
        (routedManifest.outputDirectory none) other.path := by
      rintro ⟨_, ⟨⟩, _⟩
    have hfile := hsame.mpr hbeside
    rw [hbuilt] at hfile
    rw [hartifact] at hrun
    exact ⟨artifact, _, other, last, hrun, hbuilt, hpath, hother.trans (by decide +kernel), hfile⟩
  case batch =>
    have hasks : Asks routedArguments ⟨"a.obj"⟩ routedOverrides none none :=
      ⟨routedValues, by decide +kernel, by decide, by decide +kernel, rfl, rfl⟩
    obtain ⟨hrun, hbatched⟩ := hbatch _ hasks
    obtain ⟨artifact, hartifact, hpath⟩ := exists_of_map_eq_ok
      (show ((routedMesh.convertTo (routedOverrides.apply Options.default) ⟨"a.obj"⟩
        ((routedOverrides.apply Options.default).outputFor ⟨"a.obj"⟩)).1.map Artifact.path) =
        .ok ⟨"a_surfaces.c"⟩ by decide +kernel)
    rw [hartifact] at hrun hbatched
    exact ⟨artifact, _, hrun, hbatched, hpath⟩

end Agreement

end Manifest

end CollisionMesh
