import CollisionMesh.Manifest.Build
import CollisionMesh.Proofs.BatchOrders
import CollisionMesh.Proofs.BatchRuns
import CollisionMesh.Proofs.ManifestReading
import CollisionMesh.Proofs.Scanning

/-!
# The jobs of a manifest

The name of a mesh is an identifier, so it is the symbol as it stands and names a file of its own.
The jobs of the meshes do not meet, unless one writes over what another one reads, and each has the
outcome that it has alone, in whatever order they are done.
-/

namespace CollisionMesh

set_option autoImplicit false

open FileSystem

theorem Options.symbolFor_of_isIdentifier {options : Options} {name : String}
    (hsymbol : options.symbol = some name) (hname : Identifier.isIdentifier name = true)
    (input : Path) :
    options.symbolFor input = name := by
  obtain ⟨hne, _⟩ := (Identifier.isIdentifier_iff name).mp hname
  have hempty : name.isEmpty = false := by simpa using hne
  unfold symbolFor
  rw [hsymbol, Option.getD_some, Identifier.sanitize_of_isIdentifier hname]
  simp [hempty]

theorem Path.fileName?_eq_of_same {p q : Path} (h : p.same q = true) :
    p.fileName? = q.fileName? := by
  rw [same, beq_iff_eq] at h
  rw [fileName?, fileName?, h]

namespace Manifest

section Fields

variable (manifest : Manifest) (directory : Path) (mesh : String × MeshEntry)

@[simp] theorem input_job : (manifest.job directory mesh).input = manifest.sourcePath mesh.2 := rfl

-- Plain `rfl` would compute the path instead of taking the field.
@[simp] theorem output_job :
    (manifest.job directory mesh).output = outputPath directory mesh.1 := by
  simp only [job]

@[simp] theorem options_job :
    (manifest.job directory mesh).options = mesh.2.options mesh.1 manifest.defaults := rfl

@[simp] theorem refusal_job : (manifest.job directory mesh).refusal = none := rfl

end Fields

section Names

variable {name other : String} {directory : Path}

def outputName (name : String) : String := Identifier.arrayName name ++ ".c"

theorem outputName_injective (h : outputName name = outputName other) : name = other := by
  unfold outputName Identifier.arrayName at h
  rwa [String.append_left_inj, String.append_left_inj] at h

theorem isName_outputName (h : Identifier.isIdentifier name = true) : IsName (outputName name) := by
  let options : Options := { Options.default with symbol := some name }
  have hname := options.isName_outputName ⟨""⟩
  have hsymbol : options.symbolFor ⟨""⟩ = name := Options.symbolFor_of_isIdentifier rfl h ⟨""⟩
  rwa [Options.outputName, hsymbol] at hname

theorem pieces_outputPath (h : Identifier.isIdentifier name = true) :
    (outputPath directory name).pieces = directory.basePieces ++ [(outputName name).toList] :=
  Path.pieces_join directory (isName_outputName h)

theorem eq_of_same_outputPath (h : Identifier.isIdentifier name = true)
    (hother : Identifier.isIdentifier other = true)
    (hsame : (outputPath directory name).same (outputPath directory other) = true) :
    name = other := by
  have hnames := Path.fileName?_eq_of_same hsame
  rw [Path.fileName?_of_pieces (pieces_outputPath h) (isName_outputName h),
    Path.fileName?_of_pieces (pieces_outputPath hother) (isName_outputName hother)] at hnames
  exact outputName_injective (Option.some.inj hnames)

theorem eq_of_place_outputPath {base : FileSystem} {target : Location}
    (h : Identifier.isIdentifier name = true) (hother : Identifier.isIdentifier other = true)
    (hplace : base.place (outputPath directory name) = .ok target)
    (hplace' : base.place (outputPath directory other) = .ok target) : name = other := by
  obtain ⟨_, _, htarget⟩ :=
    Path.eq_append_of_place (pieces_outputPath h) (isName_outputName h) hplace
  obtain ⟨_, _, htarget'⟩ :=
    Path.eq_append_of_place (pieces_outputPath hother) (isName_outputName hother) hplace'
  exact outputName_injective (List.append_singleton_inj.mp (htarget.symm.trans htarget')).2

end Names

/-- The conversions of a build, done in an order of the numbers of the meshes. -/
def convertInOrder (manifest : Manifest) (base : FileSystem) (directory : Path) (order : List Nat) :
    List (Except Failure Artifact) × FileSystem :=
  Batch.runJobsInOrder base (manifest.meshes.map (manifest.job directory)) order

section Converted

/-- The outcome of a mesh that is built alone. -/
def alone (manifest : Manifest) (base : FileSystem) (directory : Path) (mesh : String × MeshEntry) :
    Except Failure Artifact :=
  (base.convertTo (mesh.2.options mesh.1 manifest.defaults) (manifest.sourcePath mesh.2)
    (outputPath directory mesh.1)).1

/-- What a mesh puts where, if it succeeds. -/
def write? (manifest : Manifest) (base : FileSystem) (directory : Path)
    (mesh : String × MeshEntry) :
    Option (Location × ByteArray) :=
  (manifest.job directory mesh).write? base base

/-- Whether a mesh that is built alone writes the file that another one is read from. -/
def Overwrites (manifest : Manifest) (base : FileSystem) (directory : Path)
    (mesh other : String × MeshEntry) :
    Prop :=
  (manifest.alone base directory mesh).isOk = true ∧ ∃ location node,
    base.locate (manifest.sourcePath other.2) = .ok (location, node) ∧
      base.place (outputPath directory mesh.1) = .ok location

/-- Whether a mesh has success just if it writes. -/
def SuccessWrites (manifest : Manifest) (base : FileSystem) (directory : Path) : Prop :=
  ∀ mesh ∈ manifest.meshes,
    (manifest.alone base directory mesh).isOk = (manifest.write? base directory mesh).isSome

/-- What the conversions of all meshes come to: the outcomes that they have alone,
and the files `done`. -/
structure Converted (manifest : Manifest) (base : FileSystem) (directory : Path)
    (outcomes : List (Except Failure Artifact)) (done : List (Location × ByteArray))
    (final : FileSystem) :
    Prop where
  outcomes_eq : outcomes = manifest.meshes.map (manifest.alone base directory)
  perm : done.Perm (manifest.meshes.filterMap (manifest.write? base directory))
  nodup : (done.map Prod.fst).Nodup
  reached : Job.Reached base base done final
  success : manifest.SuccessWrites base directory

/-- Whether the meshes that are done in an order come to that. -/
def ConvertsAlone (manifest : Manifest) (base : FileSystem) (directory : Path) (order : List Nat) :
    Prop :=
  ∃ done, manifest.Converted base directory (manifest.convertInOrder base directory order).1 done
    (manifest.convertInOrder base directory order).2

variable {manifest : Manifest} {fs base : FileSystem} {directory : Path}
  {mesh other : String × MeshEntry} {order : List Nat}

theorem alone_job :
    (manifest.job directory mesh).alone base = manifest.alone base directory mesh := by
  rw [Job.alone, Job.run, refusal_job, options_job, input_job, output_job, alone]

theorem write?_eq_some_iff {write : Location × ByteArray} :
    manifest.write? base directory mesh = some write ↔
      ∃ conversion,
        base.convert (mesh.2.options mesh.1 manifest.defaults) (manifest.sourcePath mesh.2) =
          .ok conversion ∧
        base.place (outputPath directory mesh.1) = .ok write.1 ∧
        conversion.source.toUTF8 = write.2 := by
  rw [write?, Job.write?_eq_some_iff, refusal_job, options_job, input_job, output_job]
  exact ⟨And.right, fun h => ⟨rfl, h⟩⟩

/-- Two jobs of which neither writes what the other one reads or writes. -/
structure Separate (base : FileSystem) (a b : Job) : Prop where
  apart : ∀ write ∈ a.write? base base, b.Apart base [write.1]
  apart' : ∀ write ∈ b.write? base base, a.Apart base [write.1]
  places : ∀ write ∈ a.write? base base, ∀ write' ∈ b.write? base base, write.1 ≠ write'.1

theorem Separate.symm {a b : Job} (h : Separate base a b) : Separate base b a :=
  ⟨h.apart', h.apart, fun write hwrite write' hwrite' =>
    (h.places write' hwrite' write hwrite).symm⟩

theorem apart_of_not_overwrites (hsuccess : manifest.SuccessWrites base directory)
    (hmem : mesh ∈ manifest.meshes) (h : ¬manifest.Overwrites base directory mesh other) :
    ∀ write ∈ (manifest.job directory mesh).write? base base,
      (manifest.job directory other).Apart base [write.1] := by
  intro write hwrite location node hlocate hwritten
  rw [List.mem_singleton] at hwritten
  subst hwritten
  obtain ⟨_, _, hplace, _⟩ := write?_eq_some_iff.mp hwrite
  refine h ⟨?_, write.1, node, hlocate, hplace⟩
  rw [hsuccess mesh hmem, write?, Option.mem_def.mp hwrite]
  rfl

/-- What a manifest must be for its meshes not to meet. -/
structure Ready (manifest : Manifest) (base : FileSystem) (directory : Path) : Prop where
  names : (manifest.meshes.map Prod.fst).Nodup
  identifier : ∀ mesh ∈ manifest.meshes, Identifier.isIdentifier mesh.1 = true
  found : ∀ mesh ∈ manifest.meshes, base.locate (manifest.sourcePath mesh.2) ≠ .error .notFound
  apart : ∀ mesh ∈ manifest.meshes, ∀ other ∈ manifest.meshes, mesh.1 ≠ other.1 →
    ¬manifest.Overwrites base directory mesh other

theorem pairwise_separate (hready : manifest.Ready base directory)
    (hsuccess : manifest.SuccessWrites base directory) :
    (manifest.meshes.map (manifest.job directory)).Pairwise (Separate base) := by
  have hnames := List.pairwise_map.mp (List.nodup_iff_pairwise_ne.mp hready.names)
  rw [List.pairwise_map]
  refine List.Pairwise.imp_of_mem ?_ hnames
  intro a b ha hb hne
  refine ⟨apart_of_not_overwrites hsuccess ha (hready.apart a ha b hb hne),
    apart_of_not_overwrites hsuccess hb (hready.apart b hb a ha hne.symm), ?_⟩
  intro write hwrite write' hwrite' heq
  obtain ⟨_, _, hplace, _⟩ := write?_eq_some_iff.mp hwrite
  obtain ⟨_, _, hplace', _⟩ := write?_eq_some_iff.mp hwrite'
  rw [← heq] at hplace'
  exact hne
    (eq_of_place_outputPath (hready.identifier a ha) (hready.identifier b hb) hplace hplace')

theorem nodup_of_separate {jobs : List Job} (h : jobs.Pairwise (Separate base)) :
    ((jobs.filterMap fun job => job.write? base base).map Prod.fst).Nodup := by
  rw [List.nodup_iff_pairwise_ne, List.pairwise_map, List.pairwise_filterMap]
  exact h.imp fun hseparate => hseparate.places

theorem placed_job (hready : manifest.Ready base directory) (hmem : mesh ∈ manifest.meshes)
    (hdirectory : base.isDirectory (outputPath directory mesh.1).containingDirectory = true) :
    (manifest.job directory mesh).Placed base base where
  found := hready.found mesh hmem
  leaf := by
    have hidentifier := hready.identifier mesh hmem
    rw [output_job]
    exact ⟨_, _, pieces_outputPath hidentifier, isName_outputName hidentifier⟩
  directory := by
    intro _ _ _
    rw [output_job]
    exact makeDirectories_of_isDirectory hdirectory

theorem successWrites_of_isDirectory (hready : manifest.Ready base directory)
    (hdirectory : ∀ mesh ∈ manifest.meshes,
      base.isDirectory (outputPath directory mesh.1).containingDirectory = true) :
    manifest.SuccessWrites base directory := by
  intro mesh hmem
  rw [← alone_job]
  exact Job.isOk_alone (placed_job hready hmem (hdirectory mesh hmem))

theorem convertsAlone_of_runJobs (horder : order.Perm (List.range manifest.meshes.length))
    (hready : manifest.Ready base directory) (hsuccess : manifest.SuccessWrites base directory)
    (hrun : ∀ jobs : List Job, jobs.Perm (manifest.meshes.map (manifest.job directory)) →
      jobs.Pairwise (Separate base) → (runJobs base jobs).1 = jobs.map (fun job => job.alone base) ∧
        Job.Reached base base (jobs.filterMap fun job => job.write? base base)
          (runJobs base jobs).2) :
    manifest.ConvertsAlone base directory order := by
  have horder' : order.Perm (List.range (manifest.meshes.map (manifest.job directory)).length) := by
    rwa [List.length_map]
  have hperm := Batch.perm_filterMap_getElem? horder'
  -- not meeting is symmetric, so it holds of the jobs in whatever order
  have hpairs :=
    (hperm.pairwise_iff fun {_ _} => Separate.symm).mpr (pairwise_separate hready hsuccess)
  obtain ⟨houtcomes, hreached⟩ := hrun _ hperm hpairs
  refine ⟨_, ?_, ?_, nodup_of_separate hpairs, hreached, hsuccess⟩
  · rw [convertInOrder, Batch.runJobsInOrder_of_map horder' houtcomes, List.map_map]
    exact List.map_congr_left fun _ _ => alone_job
  · have hwrites := hperm.filterMap fun job => job.write? base base
    rwa [List.filterMap_map] at hwrites

theorem convertsAlone_of_isDirectory (horder : order.Perm (List.range manifest.meshes.length))
    (hready : manifest.Ready base directory)
    (hdirectory : ∀ mesh ∈ manifest.meshes,
      base.isDirectory (outputPath directory mesh.1).containingDirectory = true) :
    manifest.ConvertsAlone base directory order := by
  refine convertsAlone_of_runJobs horder hready (successWrites_of_isDirectory hready hdirectory) ?_
  intro jobs hperm hpairs
  have hstart : Job.Reached base base [] base := ⟨.inr ⟨rfl, rfl⟩, by simp⟩
  refine Job.runJobs_of_placed (Grows.refl base) hstart ?_ ?_ (hpairs.imp fun h => h.apart)
  · intro job hjob
    obtain ⟨mesh, hmem, rfl⟩ := List.mem_map.mp (hperm.mem_iff.mp hjob)
    exact placed_job hready hmem (hdirectory mesh hmem)
  · intro job _ location node _ hmem
    cases hmem

/-- Files that go to the working directory when it is not there: no mesh has
success, and nothing is made. -/
theorem convertsAlone_of_idle (horder : order.Perm (List.range manifest.meshes.length))
    (hready : manifest.Ready base directory) (hdot : base.isDirectory ⟨"."⟩ = false)
    (hcontaining : ∀ mesh ∈ manifest.meshes,
      (outputPath directory mesh.1).containingDirectory = ⟨"."⟩) :
    manifest.ConvertsAlone base directory order := by
  obtain ⟨fault, hmade⟩ := makeDirectories_dot hdot
  have hjob : ∀ mesh ∈ manifest.meshes,
      base.makeDirectories (manifest.job directory mesh).output.containingDirectory =
        (.error fault, base) := by
    intro mesh hmem
    rw [output_job, hcontaining mesh hmem, hmade]
  have hnone : ∀ mesh ∈ manifest.meshes, manifest.write? base directory mesh = none := by
    intro mesh hmem
    rw [Option.eq_none_iff_forall_ne_some]
    intro write hwrite
    obtain ⟨_, _, hplace, _⟩ := write?_eq_some_iff.mp hwrite
    have hidentifier := hready.identifier mesh hmem
    have hdirectory := Path.isDirectory_of_place (pieces_outputPath hidentifier)
      (isName_outputName hidentifier) hplace
    rw [hcontaining mesh hmem, hdot] at hdirectory
    cases hdirectory
  have hsuccess : manifest.SuccessWrites base directory := by
    intro mesh hmem
    rw [hnone mesh hmem, ← alone_job, Job.isOk_alone_of_refused (hjob mesh hmem)]
    rfl
  refine convertsAlone_of_runJobs horder hready hsuccess fun jobs hperm _ => ?_
  have hmesh : ∀ job ∈ jobs, ∃ mesh ∈ manifest.meshes, manifest.job directory mesh = job :=
    fun job hjob => List.mem_map.mp (hperm.mem_iff.mp hjob)
  have hwrites : (jobs.filterMap fun job => job.write? base base) = [] := by
    rw [List.filterMap_eq_nil_iff]
    intro job hin
    obtain ⟨mesh, hmem, rfl⟩ := hmesh job hin
    exact hnone mesh hmem
  have hidle : ∀ job ∈ jobs, (job.run base).2 = base := by
    intro job hin
    obtain ⟨mesh, hmem, rfl⟩ := hmesh job hin
    exact Job.run_of_idle (hjob mesh hmem)
  rw [Job.runJobs_of_idle hidle, hwrites]
  exact ⟨rfl, .inr ⟨rfl, rfl⟩, by simp⟩

theorem convertsAlone_of_makeDirectories (horder : order.Perm (List.range manifest.meshes.length))
    (hready : manifest.Ready base directory)
    (hmade : fs.makeDirectories directory = (.ok (), base)) :
    manifest.ConvertsAlone base directory order := by
  -- the empty path is made without a trace, and files joined to it go to the working directory
  by_cases hempty : directory.text = ""
  · have hcontaining : ∀ mesh ∈ manifest.meshes,
        (outputPath directory mesh.1).containingDirectory = ⟨"."⟩ := by
      intro mesh hmem
      have hbase : directory.basePieces = [] := by rw [Path.basePieces, if_pos hempty]
      refine (Path.containingDirectory_join directory
        (isName_outputName (hready.identifier mesh hmem))).trans ?_
      rw [if_pos hbase]
    cases hdot : base.isDirectory ⟨"."⟩ with
    | true =>
      refine convertsAlone_of_isDirectory horder hready fun mesh hmem => ?_
      rw [hcontaining mesh hmem, hdot]
    | false => exact convertsAlone_of_idle horder hready hdot hcontaining
  · refine convertsAlone_of_isDirectory horder hready fun mesh hmem => ?_
    exact Path.isDirectory_containingDirectory_join
      (isName_outputName (hready.identifier mesh hmem))
      (isDirectory_of_makeDirectories hmade hempty)

theorem ready_of_validate (hload : (manifest.meshes.map Prod.fst).Pairwise (· < ·))
    (hvalid : manifest.validate fs = .ok ()) (hgrows : Grows fs base)
    (hapart : ∀ mesh ∈ manifest.meshes, ∀ other ∈ manifest.meshes, mesh.1 ≠ other.1 →
      ¬manifest.Overwrites base directory mesh other) :
    manifest.Ready base directory where
  names := by
    refine List.nodup_iff_pairwise_ne.mpr (hload.imp ?_)
    rintro name _ hlt rfl
    exact String.lt_irrefl name hlt
  identifier := fun mesh hmem => (buildable_of_validate hvalid mesh hmem).name
  apart := hapart
  found := by
    intro mesh hmem
    have hfound := (buildable_of_validate hvalid mesh hmem).found
    unfold FileSystem.contains at hfound
    cases hlocate : fs.locate (manifest.sourcePath mesh.2) with
    | error fault =>
      rw [hlocate] at hfound
      cases hfound
    | ok found =>
      rw [hgrows.keeps.locate_of_ok hlocate List.not_mem_nil]
      simp

end Converted

end Manifest

end CollisionMesh
