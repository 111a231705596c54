import CollisionMesh.CommandLine.Command
import CollisionMesh.Interchange
import CollisionMesh.Manifest.Build
import CollisionMesh.Manifest.Document

/-!
# The command line

Running a command on a file system: its exit code, what it prints on both streams, and the
file system that it leaves.
-/

namespace CollisionMesh.CommandLine

set_option autoImplicit false

structure Outcome where
  exitCode : UInt32
  output : String
  errors : String
  deriving DecidableEq, Repr

def versionText : String := "surface-export 0.1.0\n"

namespace Outcome

def success (output : String) : Outcome := ⟨0, output, ""⟩

def failed (message : String) : Outcome := ⟨1, "", "Error: " ++ message ++ "\n"⟩

/-- A run whose arguments make no sense. -/
def usage : Outcome := ⟨2, "", ""⟩

def countText (count : Nat) (what : String) : String :=
  if count = 0 then "" else ", " ++ count.repr ++ " " ++ what

def artifactLine (artifact : Artifact) : String :=
  "  " ++ artifact.path.text ++ " (" ++ artifact.recordCount.repr ++ " surfaces" ++
    countText artifact.clampedComponents "clamped components" ++
    countText artifact.skippedFaces "degenerate faces skipped" ++
    countText artifact.skippedVertices "malformed vertices skipped" ++ ")\n"

def ofArtifact : Except Failure Artifact → Outcome
  | .ok artifact => success (artifactLine artifact)
  | .error failure => failed failure.message

def ofExport (output : Path) : Except Failure Nat → Outcome
  | .ok count => success ("  " ++ output.text ++ " (" ++ count.repr ++ " triangles)\n")
  | .error failure => failed failure.message

def failedLine? (entry : BatchEntry) : Option String :=
  match entry.outcome with
  | .ok _ => none
  | .error failure => some ("  FAILED " ++ entry.input.text ++ ": " ++ failure.message ++ "\n")

def ofBatch (entries : List BatchEntry) : Outcome :=
  let output := String.join ((BatchEntry.artifacts entries).map artifactLine)
  let failures := entries.filterMap failedLine?
  if failures.isEmpty then success output
  else
    ⟨1, output, String.join failures ++ "Error: " ++ failures.length.repr ++ " of " ++
      entries.length.repr ++ " files failed\n"⟩

def ofBuild : Except ManifestFault (List Artifact) → Outcome
  | .ok artifacts => success (String.join (artifacts.map artifactLine))
  | .error fault => failed fault.message

end Outcome

/-- The manifest at a path, if it is there and can be built. -/
def loadValid (fs : FileSystem) (path : Path) : Except ManifestFault Manifest := do
  let manifest ← Manifest.load fs path
  manifest.validate fs
  return manifest

namespace Command

def run (fs : FileSystem) : Command → Outcome × FileSystem
  | convert input output options =>
    let (result, left) := fs.convertTo options input (output.getD (options.outputFor input))
    (.ofArtifact result, left)
  | batch directory recursive options =>
    match fs.scan directory recursive with
    | .error failure => (.failed failure.message, fs)
    | .ok inputs =>
      let (entries, left) := Batch.run fs options inputs
      (.ofBatch entries, left)
  | build path output =>
    match loadValid fs path with
    | .error fault => (.failed fault.message, fs)
    | .ok manifest =>
      let (result, left) := manifest.build fs output
      (.ofBuild result, left)
  | check path =>
    match loadValid fs path with
    | .error fault => (.failed fault.message, fs)
    | .ok _ => (.success "", fs)
  | exportTriangles input output options =>
    let output := output.getD (input.withExtension "json")
    let (result, left) := fs.exportTriangles options input output
    (.ofExport output result, left)
  | importTriangles input output options =>
    let output := output.getD (options.outputFor input)
    let (result, left) := fs.convertTrianglesTo options input output
    (.ofArtifact result, left)

end Command

def run (fs : FileSystem) (arguments : List String) : Outcome × FileSystem :=
  match Request.ofArguments? arguments with
  | none => (.usage, fs)
  | some .version => (.success versionText, fs)
  | some (.run command) => command.run fs

end CollisionMesh.CommandLine
