import CollisionMesh.Proofs.ManifestBuild
import CollisionMesh.Proofs.SharedFields

/-!
# Parts of a manifest

What is read from a document is read from its parts: the settings of the output, the shared options
and the meshes, each of these from the fields of its own. No part hangs on another one.
-/

namespace CollisionMesh

set_option autoImplicit false

open Toml (Ascending Value Table)

namespace Document

section Views

/-- Fields with their values, from a table or from a list in the order of the fields. -/
def fieldsOf (keys : List String) : Value → Table
  | .table table => table
  | .array items => keys.zip items
  | _ => []

def outputFields (table : Table) : Table :=
  (table.lookup "output").elim [] (fieldsOf ["dir", "header"])

def sharedFields (table : Table) : Table := (table.lookup "defaults").elim [] (fieldsOf optionKeys)

/-- The meshes of a document by their names; a date counts as a table of one. -/
def meshesOf : Value → Table
  | .table meshes => meshes
  | .moment moment => [(momentKey, .text moment.text)]
  | _ => []

def meshValues (table : Table) : Table := (table.lookup "meshes").elim [] meshesOf

/-- The fields that a mesh has of its own. -/
def ownFields : Value → Table
  | .table table => table
  | _ => []

/-- Whether a value names a path, for itself or under a key. -/
def NamesPath (value : Value) (path : Path) : Prop :=
  value = .text path.text ∨ ∃ table, value = .table table ∧
  table.lookup "path" = some (.text path.text)

def HasOther (value : Value) (key : String) : Prop :=
  key ∈ (ownFields value).map Prod.fst ∧ IsOther key

end Views

section Ordered

theorem nodup_keys {table : Table} (h : (Value.table table).Ordered) :
    (table.map Prod.fst).Nodup := by
  have hascending := ((Value.ordered_table_iff table).mp h).1
  exact ((ascending_iff table).mp hascending).nodup

theorem ordered_of_lookup {table : Table} (h : (Value.table table).Ordered) {key : String}
    {value : Value} (hlookup : table.lookup key = some value) : value.Ordered := by
  exact ((Value.ordered_table_iff table).mp h).2 (key, value) (mem_of_lookup hlookup)

theorem nodup_fieldsOf {value : Value} (hvalue : value.Ordered) {keys : List String}
    (hkeys : keys.Nodup) :
    ((fieldsOf keys value).map Prod.fst).Nodup := by
  cases value with
  | table table => exact nodup_keys hvalue
  | array items =>
    rw [fieldsOf, List.zip_eq_zip_take_min, List.map_fst_zip (by simp)]
    exact hkeys.sublist (List.take_sublist _ _)
  | _ => exact List.nodup_nil

theorem nodup_sharedFields {table : Table} (h : (Value.table table).Ordered) :
    ((sharedFields table).map Prod.fst).Nodup := by
  unfold sharedFields
  cases hlookup : table.lookup "defaults" with
  | none => exact List.nodup_nil
  | some value => exact nodup_fieldsOf (ordered_of_lookup h hlookup) (by decide)

theorem ordered_meshValues {table : Table} (h : (Value.table table).Ordered) :
    (Value.table (meshValues table)).Ordered := by
  have hnil : (Value.table []).Ordered := .table [] .nil (by simp)
  unfold meshValues
  cases hlookup : table.lookup "meshes" with
  | none => exact hnil
  | some value =>
    have hvalue := ordered_of_lookup h hlookup
    cases value with
    | table meshes => exact hvalue
    | moment moment =>
      refine .table _ (List.pairwise_singleton _ _) fun entry hentry => ?_
      rw [List.mem_singleton.mp hentry]
      exact .text _
    | _ => exact hnil

theorem ordered_ownFields {value : Value} (h : value.Ordered) :
    (Value.table (ownFields value)).Ordered := by
  cases value with
  | table table => exact h
  | _ => exact .table [] .nil (by simp)

end Ordered

/-- A part of a document, told by its key and by how it is read. -/
inductive DraftPart where
  | output
  | defaults
  | meshes
  deriving DecidableEq, Repr

namespace DraftPart

def Carrier : DraftPart → Type
  | output => OutputSettings
  | defaults => Options
  | meshes => List (String × MeshDraft)

def key : DraftPart → String
  | output => "output"
  | defaults => "defaults"
  | meshes => "meshes"

def read : (part : DraftPart) → Value → Except DocumentFault part.Carrier
  | output => readOutput
  | defaults => readOptions
  | meshes => readMeshes

def get : (part : DraftPart) → ManifestDraft → part.Carrier
  | output => ManifestDraft.output
  | defaults => ManifestDraft.defaults
  | meshes => ManifestDraft.meshes

def set : (part : DraftPart) → part.Carrier → ManifestDraft → ManifestDraft
  | output => fun value draft => { draft with output := value }
  | defaults => fun value draft => { draft with defaults := value }
  | meshes => fun value draft => { draft with meshes := value }

@[simp] theorem get_set (part : DraftPart) (value : part.Carrier) (draft : ManifestDraft) :
    part.get (part.set value draft) = value := by
  cases part <;> rfl

theorem get_set_of_ne {part other : DraftPart} (h : part ≠ other) (value : other.Carrier)
    (draft : ManifestDraft) :
    part.get (other.set value draft) = part.get draft := by
  cases part <;> cases other <;> first | rfl | exact absurd rfl h

end DraftPart

section Parts

variable {draft next : ManifestDraft} {key : String} {value : Value} {table : Table}

theorem setPart_key (part : DraftPart) (draft : ManifestDraft) (value : Value) :
    setPart draft part.key value = (part.read value).map fun read => part.set read draft := by
  cases part with
  | output => exact (map_eq_pure_bind _ _).symm
  | defaults => exact (map_eq_pure_bind _ _).symm
  | meshes => exact (map_eq_pure_bind _ _).symm

theorem setPart_eq_ok (h : setPart draft key value = .ok next) :
    ∃ part : DraftPart, part.key = key ∧ ∃ read, part.read value = .ok read ∧
      next = part.set read draft := by
  have hkey : ∃ part : DraftPart, part.key = key := by
    unfold setPart at h
    split at h
    · exact ⟨.output, rfl⟩
    · exact ⟨.defaults, rfl⟩
    · exact ⟨.meshes, rfl⟩
    · cases h
  obtain ⟨part, rfl⟩ := hkey
  rw [setPart_key] at h
  obtain ⟨read, hread, rfl⟩ := exists_of_map_eq_ok h
  exact ⟨part, rfl, read, hread, rfl⟩

theorem get_of_setPart (part : DraftPart) (h : setPart draft part.key value = .ok next) :
    part.read value = .ok (part.get next) := by
  rw [setPart_key] at h
  obtain ⟨read, hread, rfl⟩ := exists_of_map_eq_ok h
  rw [hread, part.get_set]

theorem get_of_setPart_of_ne (part : DraftPart) (hne : key ≠ part.key)
    (h : setPart draft key value = .ok next) :
    part.get next = part.get draft := by
  obtain ⟨other, rfl, read, _, rfl⟩ := setPart_eq_ok h
  exact DraftPart.get_set_of_ne (fun heq => hne (congrArg DraftPart.key heq).symm) read draft

theorem exists_given_part (part : DraftPart) (hkeys : (table.map Prod.fst).Nodup)
    (h : readManifest table = .ok draft) : ∃ given, Given table part.key part.read given ∧
      part.get draft = given.getD (part.get {}) :=
  exists_given hkeys h (fun _ _ _ => get_of_setPart part) fun _ _ _ => get_of_setPart_of_ne part

/-- What is read from the fields of a part, and from none if the part is absent. -/
theorem readFields_of_given {α : Type} {read : Value → Except DocumentFault α} {given : Option α}
    {fields : Value → Table} {readFields : Table → Except DocumentFault α} {start : α}
    (h : Given table key read given)
    (hfields : ∀ value result, read value = .ok result → readFields (fields value) = .ok result)
    (hnone : readFields [] = .ok start) :
    readFields ((table.lookup key).elim [] fields) = .ok (given.getD start) := by
  cases given with
  | none =>
    rw [show table.lookup key = none from h]
    exact hnone
  | some result =>
    obtain ⟨value, hvalue, hread⟩ := h
    rw [hvalue]
    exact hfields value result hread

theorem readOutput_eq_ok {settings : OutputSettings} (h : readOutput value = .ok settings) :
    readOutputTable (fieldsOf ["dir", "header"] value) = .ok settings := by
  cases value <;> first | exact h | cases h

theorem readOptions_eq_ok {options : Options} (h : readOptions value = .ok options) :
    readOptionTable (fieldsOf optionKeys value) = .ok options := by
  cases value <;> first | exact h | cases h

theorem readMeshes_eq_ok {meshes : List (String × MeshDraft)} (h : readMeshes value = .ok meshes) :
    (meshesOf value).mapM readNamedMesh = .ok meshes := by
  cases value <;> first | exact h | cases h

/-- The parts of a document, each read for itself. -/
structure ReadsParts (table : Table) (draft : ManifestDraft) : Prop where
  top : ∀ entry ∈ table, entry.1 ∈ ["output", "defaults", "meshes"]
  output : readOutputTable (outputFields table) = .ok draft.output
  defaults : readOptionTable (sharedFields table) = .ok draft.defaults
  meshes : (meshValues table).mapM readNamedMesh = .ok draft.meshes

theorem readsParts_of_readManifest (htable : (Value.table table).Ordered)
    (h : readManifest table = .ok draft) :
    ReadsParts table draft := by
  have hkeys := nodup_keys htable
  refine ⟨?top, ?output, ?defaults, ?meshes⟩
  case top =>
    intro entry hentry
    obtain ⟨_, _, hstep⟩ := exists_step_of_foldlM h entry hentry
    obtain ⟨part, hpart, _⟩ := setPart_eq_ok hstep
    rw [← hpart]
    cases part <;> decide
  case output =>
    obtain ⟨given, hgiven, houtput⟩ := exists_given_part .output hkeys h
    exact (readFields_of_given hgiven (fun _ _ => readOutput_eq_ok) rfl).trans
      (congrArg Except.ok houtput.symm)
  case defaults =>
    obtain ⟨given, hgiven, hdefaults⟩ := exists_given_part .defaults hkeys h
    exact (readFields_of_given hgiven (fun _ _ => readOptions_eq_ok) rfl).trans
      (congrArg Except.ok hdefaults.symm)
  case meshes =>
    obtain ⟨given, hgiven, hmeshes⟩ := exists_given_part .meshes hkeys h
    exact (readFields_of_given hgiven (fun _ _ => readMeshes_eq_ok) rfl).trans
      (congrArg Except.ok hmeshes.symm)

end Parts

section Meshes

variable {value : Value} {table : Table}

/-- A mesh as read from a value: its path, the fields that are given, and the keys
that it should not have. -/
structure ReadsMesh (value : Value) (draft : MeshDraft) : Prop where
  path : NamesPath value draft.entry.path
  fields : ∀ field : SharedField,
    Given (ownFields value) field.key field.read (field.override? draft.entry.overrides)
  unknown : draft.unknownKeys = (others (ownFields value)).map Prod.fst

theorem readMesh_table_eq_ok_iff {draft : MeshDraft} :
    readMesh (.table table) = .ok draft ↔
      table.lookup "path" = some (.text draft.entry.path.text) ∧
        (Value.table table).isReadable wholeRange.1 wholeRange.2 = true ∧
        table.foldlM (fun draft entry => addMeshKey draft entry.1 entry.2) ({}, []) =
          .ok (draft.entry.overrides, draft.unknownKeys) := by
  rw [readMesh]
  constructor
  · intro h
    split at h
    · rename_i path hpath
      split at h
      · rename_i hreadable
        obtain ⟨⟨overrides, unknownKeys⟩, hwalk, h⟩ := (bind_eq_ok_iff _ _ _).mp h
        cases h
        exact ⟨hpath, hreadable, hwalk⟩
      · cases h
    · cases h
  · rintro ⟨hpath, hreadable, hwalk⟩
    rw [hpath]
    simp only
    rw [if_pos hreadable, hwalk]
    rfl

theorem readsMesh_of_readMesh {draft : MeshDraft} (hvalue : value.Ordered)
    (h : readMesh value = .ok draft) :
    ReadsMesh value draft := by
  cases value with
  | text path =>
    cases h
    exact ⟨.inl rfl, fun field => by cases field <;> rfl, rfl⟩
  | table table =>
    obtain ⟨hpath, _, hwalk⟩ := readMesh_table_eq_ok_iff.mp h
    exact ⟨.inr ⟨table, rfl, hpath⟩, given_of_foldlM (nodup_keys hvalue) hwalk,
      (unknownKeys_of_foldlM hwalk).trans (List.nil_append _)⟩
  | _ => cases h

theorem readNamedMesh_eq_ok_iff {entry : String × Value} {mesh : String × MeshDraft} :
    readNamedMesh entry = .ok mesh ↔ mesh.1 = entry.1 ∧ readMesh entry.2 = .ok mesh.2 := by
  unfold readNamedMesh
  cases readMesh entry.2 with
  | error fault => exact ⟨nofun, fun h => nomatch h.2⟩
  | ok draft =>
    constructor
    · rintro ⟨⟩
      exact ⟨rfl, rfl⟩
    · rintro ⟨hname, hdraft⟩
      cases hdraft
      rw [← hname]

theorem readsMesh_of_readsParts {draft : ManifestDraft} (htable : (Value.table table).Ordered)
    (h : ReadsParts table draft) :
    List.Forall₂ (fun entry mesh => mesh.1 = entry.1 ∧ ReadsMesh entry.2 mesh.2)
      (meshValues table) draft.meshes := by
  obtain ⟨_, heach⟩ := (Value.ordered_table_iff _).mp (ordered_meshValues htable)
  refine List.Forall₂.imp ?_
    ((List.forall₂_and_left _ _).mpr ⟨heach, (mapM_ok_iff _ _ _).mp h.meshes⟩)
  rintro entry mesh ⟨hentry, hread⟩
  obtain ⟨hname, hmesh⟩ := readNamedMesh_eq_ok_iff.mp hread
  exact ⟨hname, readsMesh_of_readMesh hentry hmesh⟩

end Meshes

end Document

end CollisionMesh
