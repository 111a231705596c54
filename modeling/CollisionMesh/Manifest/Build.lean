import CollisionMesh.Batch
import CollisionMesh.Manifest

/-!
# Building a manifest

Every mesh is converted for itself into the output directory, in ascending order of names. A header,
if there is to be one, declares the arrays of the meshes that succeeded; a build in which a mesh
failed is a failure that names all of them.
-/

namespace CollisionMesh.Manifest

set_option autoImplicit false

/-- Where the generated file of a mesh goes. -/
def outputPath (directory : Path) (name : String) : Path :=
  directory.join ⟨Identifier.arrayName name ++ ".c"⟩

def job (manifest : Manifest) (directory : Path) (mesh : String × MeshEntry) : Job where
  input := manifest.sourcePath mesh.2
  output := outputPath directory mesh.1
  options := mesh.2.options mesh.1 manifest.defaults

def failures (manifest : Manifest) (outcomes : List (Except Failure Artifact)) :
    List (String × Failure) :=
  (manifest.meshes.zip outcomes).filterMap fun entry =>
    match entry.2 with
    | .ok _ => none
    | .error failure => some (entry.1.1, failure)

def writeHeader (manifest : Manifest) (fs : FileSystem) (directory : Path)
    (artifacts : List Artifact) : Except Failure Unit × FileSystem :=
  match manifest.header with
  | none => (.ok (), fs)
  | some header =>
    fs.writeFile (directory.join header)
      (declarationHeader (artifacts.map fun artifact => artifact.symbol)).toUTF8

/-- What follows from the outcomes of the meshes; the header is written before
failures are reported. -/
def conclude (manifest : Manifest) (fs : FileSystem) (directory : Path)
    (outcomes : List (Except Failure Artifact)) :
    Except ManifestFault (List Artifact) × FileSystem :=
  let artifacts := outcomes.filterMap Except.toOption
  match manifest.writeHeader fs directory artifacts with
  | (.error failure, fs) => (.error (.header failure), fs)
  | (.ok (), fs) =>
    match manifest.failures outcomes with
    | [] => (.ok artifacts, fs)
    | failures => (.error (.failedMeshes manifest.meshes.length failures), fs)

def build (manifest : Manifest) (fs : FileSystem) (instead : Option Path) :
    Except ManifestFault (List Artifact) × FileSystem :=
  let directory := manifest.outputDirectory instead
  match fs.makeDirectories directory with
  | (.error fault, fs) => (.error (.noDirectory directory fault), fs)
  | (.ok (), fs) =>
    let (outcomes, fs) := runJobs fs (manifest.meshes.map (manifest.job directory))
    manifest.conclude fs directory outcomes

end CollisionMesh.Manifest
