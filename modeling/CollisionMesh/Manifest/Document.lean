import CollisionMesh.FileSystem.Text
import CollisionMesh.Manifest
import CollisionMesh.Options.Document
import CollisionMesh.Toml.Reader

/-!
# Manifests in documents

A manifest as a document: a table `output`, a table `defaults` of options, and a table `meshes` in
which each mesh is a path or a table with a path and overrides. Keys that are not known are refused
everywhere, those of meshes only when all else is in order.
-/

namespace CollisionMesh

set_option autoImplicit false

namespace Document

open Toml (Value Table)

/-- The only key of the table that a date or time counts as where a table is wanted. -/
def momentKey : String := "$__toml_private_datetime"

structure OutputSettings where
  directory : Path := ⟨"collision/"⟩
  header : Option Path := none

/-- Sets the part of the output settings that a key names, which must be one. -/
def setOutput (settings : OutputSettings) (key : String) (value : Value) :
    Except DocumentFault OutputSettings :=
  match key with
  | "dir" => do return { settings with directory := ← readPath value }
  | "header" => do return { settings with header := some (← readPath value) }
  | _ => .error .malformed

def readOutputTable (table : Table) : Except DocumentFault OutputSettings :=
  table.foldlM (fun settings entry => setOutput settings entry.1 entry.2) {}

/-- Output settings from a table, or from a list of the directory and the header. -/
def readOutput : Value → Except DocumentFault OutputSettings
  | .table table => readOutputTable table
  | .array items => readOutputTable (["dir", "header"].zip items)
  | _ => .error .malformed

/-- A mesh of a document, and the keys that it should not have, in ascending order. -/
structure MeshDraft where
  entry : MeshEntry
  unknownKeys : List String

/-- Whether the value of a choice has the form that it may have in a mesh: no list under a key. -/
def isPlainChoice : Value → Bool
  | .table [(_, .array _)] => false
  | _ => true

def addMeshKey (draft : Overrides × List String) (key : String) (value : Value) :
    Except DocumentFault (Overrides × List String) :=
  if key = "path" then .ok draft
  else
    match setOverride draft.1 key value with
    | some overrides =>
      if isPlainChoice value then do return (← overrides, draft.2) else .error .malformed
    | none => .ok (draft.1, draft.2 ++ [key])

def readMesh : Value → Except DocumentFault MeshDraft
  | .text path => .ok ⟨⟨⟨path⟩, {}⟩, []⟩
  | .table table =>
    match table.lookup "path" with
    | some (.text path) =>
      if (Value.table table).isReadable wholeRange.1 wholeRange.2 then do
        let (overrides, unknownKeys) ←
          table.foldlM (fun draft entry => addMeshKey draft entry.1 entry.2) ({}, [])
        return ⟨⟨⟨path⟩, overrides⟩, unknownKeys⟩
      else .error .malformed
    | _ => .error .malformed
  | _ => .error .malformed

/-- A mesh under its name; whatever is wrong with it has no cause that shows. -/
def readNamedMesh (entry : String × Value) : Except DocumentFault (String × MeshDraft) :=
  match readMesh entry.2 with
  | .ok mesh => .ok (entry.1, mesh)
  | .error _ => .error .malformed

def readMeshes : Value → Except DocumentFault (List (String × MeshDraft))
  | .table table => table.mapM readNamedMesh
  | .moment moment => [(momentKey, Value.text moment.text)].mapM readNamedMesh
  | _ => .error .malformed

structure ManifestDraft where
  output : OutputSettings := {}
  defaults : Options := Options.default
  meshes : List (String × MeshDraft) := []

def setPart (draft : ManifestDraft) (key : String) (value : Value) :
    Except DocumentFault ManifestDraft :=
  match key with
  | "output" => do return { draft with output := ← readOutput value }
  | "defaults" => do return { draft with defaults := ← readOptions value }
  | "meshes" => do return { draft with meshes := ← readMeshes value }
  | _ => .error .malformed

def readManifest (table : Table) : Except DocumentFault ManifestDraft :=
  table.foldlM (fun draft entry => setPart draft entry.1 entry.2) {}

/-- The first key that a mesh should not have, with the name of the mesh. -/
def ManifestDraft.unknownKey? (draft : ManifestDraft) : Option (String × String) :=
  draft.meshes.findSome? fun mesh => mesh.2.unknownKeys.head?.map fun key => (mesh.1, key)

end Document

namespace Manifest

open Document

def ofTable (path : Path) (table : Toml.Table) : Except ManifestFault Manifest :=
  match readManifest table with
  | .error (.axisMap fault) => .error (.malformed path (some fault))
  | .error .malformed => .error (.malformed path none)
  | .ok draft =>
    match draft.unknownKey? with
    | some (mesh, key) => .error (.unknownKey path mesh key)
    | none =>
      .ok {
        root := path.parent?.getD ⟨""⟩
        directory := draft.output.directory
        header := draft.output.header
        defaults := draft.defaults
        meshes := draft.meshes.map fun mesh => (mesh.1, mesh.2.entry) }

def load (fs : FileSystem) (path : Path) : Except ManifestFault Manifest := do
  let text ← (fs.readText path).mapError (ManifestFault.unreadable path)
  match Toml.ofText? text with
  | some table => ofTable path table
  | none => .error (.malformed path none)

end Manifest

end CollisionMesh
