import CollisionMesh.Manifest.Document
import CollisionMesh.Proofs.TomlOrder
import CollisionMesh.Proofs.Traversal

/-!
# Manifests that are accepted

The meshes of a manifest that was loaded have their names in ascending order, as the document has
its keys; those of a manifest that was validated have identifiers for names, files to read, and
options that can be honoured.
-/

namespace CollisionMesh

set_option autoImplicit false

namespace Document

open Toml (Ascending Value Table)

theorem ascending_iff {α : Type} (entries : List (String × α)) :
    Ascending entries ↔ (entries.map Prod.fst).Pairwise (· < ·) :=
  List.pairwise_map.symm

theorem fst_of_readNamedMesh {entry : String × Value} {mesh : String × MeshDraft}
    (h : readNamedMesh entry = .ok mesh) : mesh.1 = entry.1 := by
  unfold readNamedMesh at h
  split at h
  · cases h
    rfl
  · cases h

theorem map_fst_of_mapM {table : Table} {meshes : List (String × MeshDraft)}
    (h : table.mapM readNamedMesh = .ok meshes) : meshes.map Prod.fst = table.map Prod.fst := by
  rw [mapM_ok_iff] at h
  induction h with
  | nil => rfl
  | cons hentry _ ih => rw [List.map_cons, List.map_cons, fst_of_readNamedMesh hentry, ih]

theorem ascending_of_readMeshes {value : Value} {meshes : List (String × MeshDraft)}
    (hvalue : value.Ordered) (h : readMeshes value = .ok meshes) : Ascending meshes := by
  rw [ascending_iff]
  unfold readMeshes at h
  split at h
  · rw [map_fst_of_mapM h, ← ascending_iff]
    exact ((Value.ordered_table_iff _).mp hvalue).1
  · rw [map_fst_of_mapM h]
    simp
  · cases h

theorem ascending_of_setPart {draft next : ManifestDraft} {key : String} {value : Value}
    (hvalue : value.Ordered) (hdraft : Ascending draft.meshes)
    (h : setPart draft key value = .ok next) : Ascending next.meshes := by
  unfold setPart at h
  split at h
  · obtain ⟨output, _, h⟩ := (bind_eq_ok_iff _ _ _).mp h
    cases h
    exact hdraft
  · obtain ⟨options, _, h⟩ := (bind_eq_ok_iff _ _ _).mp h
    cases h
    exact hdraft
  · obtain ⟨meshes, hmeshes, h⟩ := (bind_eq_ok_iff _ _ _).mp h
    cases h
    exact ascending_of_readMeshes hvalue hmeshes
  · cases h

theorem ascending_of_readManifest {table : Table} {draft : ManifestDraft}
    (htable : (Value.table table).Ordered) (h : readManifest table = .ok draft) :
    Ascending draft.meshes := by
  obtain ⟨_, heach⟩ := (Value.ordered_table_iff table).mp htable
  have hstart : Ascending ({} : ManifestDraft).meshes := .nil
  refine foldlM_invariant (P := fun draft : ManifestDraft => Ascending draft.meshes) ?_ hstart h
  exact fun entry hentry state next hstate hnext =>
    ascending_of_setPart (heach entry hentry) hstate hnext

end Document

namespace Manifest

variable {manifest : Manifest} {fs : FileSystem} {path : Path}

theorem exists_draft_of_ofTable {table : Toml.Table} (h : ofTable path table = .ok manifest) :
    ∃ draft, Document.readManifest table = .ok draft ∧ draft.unknownKey? = none ∧
      manifest =
        ⟨path.parent?.getD ⟨""⟩, draft.output.directory, draft.output.header, draft.defaults,
        draft.meshes.map fun mesh => (mesh.1, mesh.2.entry)⟩ := by
  unfold ofTable at h
  split at h
  · cases h
  · cases h
  · rename_i draft hdraft
    split at h
    · cases h
    · rename_i hunknown
      cases h
      exact ⟨draft, hdraft, hunknown, rfl⟩

/-- The meshes of a manifest have the order of their names, and no name twice. -/
theorem ascending_of_load (h : Manifest.load fs path = .ok manifest) :
    (manifest.meshes.map Prod.fst).Pairwise (· < ·) := by
  obtain ⟨text, _, h⟩ := (bind_eq_ok_iff _ _ _).mp h
  split at h
  · rename_i table htable
    obtain ⟨draft, hdraft, _, rfl⟩ := exists_draft_of_ofTable h
    have hascending := Document.ascending_of_readManifest (Toml.ordered_of_ofText? htable) hdraft
    rw [Document.ascending_iff] at hascending
    rw [List.map_map]
    exact hascending
  · cases h

/-- A mesh that can be built, as far as that shows without reading its file. -/
structure Buildable (manifest : Manifest) (fs : FileSystem) (mesh : String × MeshEntry) : Prop where
  name : Identifier.isIdentifier mesh.1 = true
  found : fs.contains (manifest.sourcePath mesh.2) = true
  valid : (mesh.2.options mesh.1 manifest.defaults).validate = .ok ()

theorem buildable_of_validateMesh {mesh : String × MeshEntry}
    (h : manifest.validateMesh fs mesh = .ok ()) : manifest.Buildable fs mesh := by
  unfold validateMesh at h
  split at h
  · cases h
  · rename_i hname
    split at h
    · cases h
    · rename_i hfound
      refine ⟨by simpa using hname, by simpa using hfound, ?_⟩
      cases hvalid : (mesh.2.options mesh.1 manifest.defaults).validate with
      | error fault =>
        rw [hvalid] at h
        cases h
      | ok _ => rfl

theorem buildable_of_validate (h : manifest.validate fs = .ok ()) :
    ∀ mesh ∈ manifest.meshes, manifest.Buildable fs mesh := by
  unfold validate at h
  split at h
  · cases h
  · generalize manifest.meshes = meshes at h
    induction meshes with
    | nil => simp
    | cons mesh meshes ih =>
      obtain ⟨⟨⟩, hmesh, h⟩ := (bind_eq_ok_iff _ _ _).mp h
      exact List.forall_mem_cons.mpr ⟨buildable_of_validateMesh hmesh, ih h⟩

end Manifest

end CollisionMesh
