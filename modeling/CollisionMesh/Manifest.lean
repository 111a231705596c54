import CollisionMesh.Failure

/-!
# Manifests

A list of meshes, each under the name of its symbol, with settings that they share and settings of
their own, and the directory that the generated files go to.
-/

namespace CollisionMesh

set_option autoImplicit false

structure MeshEntry where
  /-- Where the mesh file is, seen from the directory of the manifest. -/
  path : Path
  overrides : Overrides
  deriving DecidableEq, Repr

structure Manifest where
  /-- The directory of the manifest, from which its paths are seen. -/
  root : Path
  directory : Path
  /-- The header that declares all generated arrays, seen from that directory. -/
  header : Option Path
  defaults : Options
  /-- The meshes in ascending order of their names. -/
  meshes : List (String × MeshEntry)
  deriving DecidableEq, Repr

/-- Why a manifest cannot be read, is refused, or cannot be built. -/
inductive ManifestFault where
  | unreadable (path : Path) (fault : FileFault)
  /-- The text is no manifest; the first reason may be a text that is no axis map. -/
  | malformed (path : Path) (axisMap : Option AxisMapFault)
  | unknownKey (path : Path) (mesh key : String)
  | noMeshes
  | invalidName (mesh : String)
  | missingSource (mesh : String) (source : Path)
  | invalidMesh (mesh : String) (fault : OptionsFault)
  | noDirectory (directory : Path) (fault : SystemFault)
  | header (failure : Failure)
  /-- Some meshes failed, in the order of their names. -/
  | failedMeshes (total : Nat) (failures : List (String × Failure))
  deriving DecidableEq, Repr

namespace ManifestFault

def failureLine (entry : String × Failure) : String := entry.1 ++ ": " ++ entry.2.message

def message : ManifestFault → String
  | unreadable path _ => "Failed to read manifest: " ++ Text.quote path.text
  | malformed path _ => "Failed to parse manifest: " ++ Text.quote path.text
  | unknownKey path mesh key =>
    "Mesh '" ++ mesh ++ "' has unknown key '" ++ key ++ "' in " ++ Text.quote path.text
  | noMeshes => "Manifest lists no meshes"
  | invalidName mesh => "Mesh name '" ++ mesh ++ "' is not a valid C identifier"
  | missingSource mesh source =>
    "Mesh '" ++ mesh ++ "' source not found: " ++ Text.quote source.text
  | invalidMesh mesh _ => "Mesh '" ++ mesh ++ "' has an invalid configuration"
  | noDirectory directory _ =>
    "Failed to create output directory: " ++ Text.quote directory.text
  | header failure => failure.message
  | failedMeshes total failures =>
    failures.length.repr ++ " of " ++ total.repr ++ " meshes failed:\n" ++
      "\n".intercalate (failures.map failureLine)

/-- The message of what lies under a fault, if anything does. -/
def cause? : ManifestFault → Option String
  | unreadable _ fault => some fault.message
  | malformed _ axisMap =>
    axisMap.map fun fault => (Failure.invalidOptions (.axisMap fault)).message
  | invalidMesh _ fault => some (Failure.invalidOptions fault).message
  | noDirectory _ fault => some fault.message
  | header (.file _ fault) => some fault.message
  | _ => none

end ManifestFault

/-- The options of a mesh: its own settings over the shared ones, and its name as symbol. -/
def MeshEntry.options (entry : MeshEntry) (name : String) (defaults : Options) : Options :=
  { entry.overrides.apply defaults with symbol := some name }

namespace Manifest

def sourcePath (manifest : Manifest) (entry : MeshEntry) : Path := manifest.root.join entry.path

/-- Where the generated files go, unless another directory is given. -/
def outputDirectory (manifest : Manifest) (instead : Option Path) : Path :=
  instead.getD (manifest.root.join manifest.directory)

/-- Refuses a mesh that cannot be built, as far as that shows without reading its file. -/
def validateMesh (manifest : Manifest) (fs : FileSystem) (mesh : String × MeshEntry) :
    Except ManifestFault Unit :=
  if !Identifier.isIdentifier mesh.1 then .error (.invalidName mesh.1)
  else if !fs.contains (manifest.sourcePath mesh.2) then
    .error (.missingSource mesh.1 (manifest.sourcePath mesh.2))
  else (mesh.2.options mesh.1 manifest.defaults).validate.mapError (.invalidMesh mesh.1)

/-- Refuses a manifest without meshes, or with a mesh that cannot be built. -/
def validate (manifest : Manifest) (fs : FileSystem) : Except ManifestFault Unit :=
  if manifest.meshes.isEmpty then .error .noMeshes
  else manifest.meshes.forM (manifest.validateMesh fs)

end Manifest

@[simp] theorem MeshEntry.symbol_options (entry : MeshEntry) (name : String) (defaults : Options) :
    (entry.options name defaults).symbol = some name := rfl

end CollisionMesh
