import CollisionMesh.Manifest.Build
import CollisionMesh.Proofs.ManifestParts

/-!
# Layers of a manifest

What a document must be for a manifest to be read from it, and which options its meshes have
then: each field is that of the mesh, or else the shared one, or else the default one. Keys
that meshes should not have are found last, when all else is in order, and the least one of the
first such mesh is named.
-/

namespace CollisionMesh

set_option autoImplicit false

open Toml (Ascending Value Table)

namespace Document

/-- What the keys of a document may be, and what its meshes must be. -/
structure Strict (table : Table) : Prop where
  top : ∀ entry ∈ table, entry.1 ∈ ["output", "defaults", "meshes"]
  output : ∀ entry ∈ outputFields table, entry.1 ∈ ["dir", "header"]
  defaults : ∀ entry ∈ sharedFields table, entry.1 ∈ optionKeys
  path : ∀ entry ∈ meshValues table, ∃ path, NamesPath entry.2 path
  meshes : ∀ entry ∈ meshValues table, ∀ field ∈ ownFields entry.2,
    field.1 = "path" ∨ field.1 ∈ SharedField.keys

/-- How a mesh comes of its entry in a document, and what its options are. -/
structure Layered (table : Table) (defaults : Options) (entry : String × Value)
    (mesh : String × MeshEntry) :
    Prop where
  name : mesh.1 = entry.1
  path : NamesPath entry.2 mesh.2.path
  fields : ∀ field : SharedField, ∃ own shared, Given (ownFields entry.2) field.key field.read own ∧
    Given (sharedFields table) field.key field.read shared ∧
    field.get (mesh.2.options mesh.1 defaults) = own.getD (shared.getD (field.get Options.default))
  includes : ∃ shared, Given (sharedFields table) "includes" readTexts shared ∧
    (mesh.2.options mesh.1 defaults).includes = shared.getD Options.default.includes
  symbol : (mesh.2.options mesh.1 defaults).symbol = some entry.1

/-- The least key that the first mesh with such keys should not have. -/
structure FirstOther (table : Table) (mesh key : String) : Prop where
  found : ∃ value, (mesh, value) ∈ meshValues table ∧ HasOther value key ∧
  ∀ other, HasOther value other → key ≤ other
  first : ∀ entry ∈ meshValues table, ∀ other, HasOther entry.2 other → mesh ≤ entry.1

/-- Documents that are the same but for the shared symbol and the shared directory of the output. -/
structure SameButTarget (table other : Table) : Prop where
  parts : ∀ key, key ≠ "defaults" → other.lookup key = table.lookup key
  shared : ∀ key, key ≠ "symbol" → key ≠ "output_dir" →
    (sharedFields other).lookup key = (sharedFields table).lookup key

def withoutOtherKeys : Value → Value
  | .table table => .table (table.filter fun entry => ¬IsOther entry.1)
  | value => value

def withoutOtherKeysOfMeshes : Value → Value
  | .table meshes => .table (meshes.map fun mesh => (mesh.1, withoutOtherKeys mesh.2))
  | value => value

/-- The document without the keys that its meshes should not have. -/
def withoutOthers (table : Table) : Table :=
  table.map fun entry =>
    (entry.1, if entry.1 = "meshes" then withoutOtherKeysOfMeshes entry.2 else entry.2)

section Strict

variable {draft : ManifestDraft} {table : Table}

theorem mem_of_setOutput {settings next : OutputSettings} {key : String} {value : Value}
    (h : setOutput settings key value = .ok next) : key ∈ ["dir", "header"] := by
  unfold setOutput at h
  split at h
  · decide
  · decide
  · cases h

theorem findSome?_of_forall₂ {α β γ : Type} {R : α → β → Prop} {f : α → Option γ} {g : β → Option γ}
    (hR : ∀ x y, R x y → f x = g y) {xs : List α} {ys : List β} (h : List.Forall₂ R xs ys) :
    xs.findSome? f = ys.findSome? g := by
  induction h with
  | nil => rfl
  | cons hhead _ ih => rw [List.findSome?_cons, List.findSome?_cons, hR _ _ hhead, ih]

theorem unknownKey?_eq_of_readsParts (htable : (Value.table table).Ordered)
    (h : ReadsParts table draft) :
    draft.unknownKey? = (meshValues table).findSome? fun entry =>
      (others (ownFields entry.2)).head?.map fun other => (entry.1, other.1) := by
  refine (findSome?_of_forall₂ ?_ (readsMesh_of_readsParts htable h)).symm
  rintro entry mesh ⟨hname, hmesh⟩
  rw [hmesh.unknown, hname, List.head?_map, Option.map_map]
  rfl

theorem others_eq_nil_of_unknownKey? (htable : (Value.table table).Ordered)
    (h : ReadsParts table draft) (hunknown : draft.unknownKey? = none) {entry : String × Value}
    (hmem : entry ∈ meshValues table) :
    others (ownFields entry.2) = [] := by
  rw [unknownKey?_eq_of_readsParts htable h, List.findSome?_eq_none_iff] at hunknown
  exact List.head?_eq_none_iff.mp (Option.map_eq_none_iff.mp (hunknown entry hmem))

theorem mem_others_iff {entry : String × Value} :
    entry ∈ others table ↔ entry ∈ table ∧ IsOther entry.1 := by
  rw [others, List.mem_filter, decide_eq_true_iff]

theorem hasOther_iff {value : Value} {key : String} :
    HasOther value key ↔ key ∈ (others (ownFields value)).map Prod.fst := by
  simp only [HasOther, List.mem_map, mem_others_iff]
  constructor
  · rintro ⟨⟨entry, hmem, rfl⟩, hother⟩
    exact ⟨entry, ⟨hmem, hother⟩, rfl⟩
  · rintro ⟨entry, ⟨hmem, hother⟩, rfl⟩
    exact ⟨⟨entry, hmem, rfl⟩, hother⟩

theorem strict_of_readsParts (htable : (Value.table table).Ordered) (h : ReadsParts table draft)
    (hunknown : draft.unknownKey? = none) : Strict table := by
  refine ⟨h.top, ?output, ?defaults, ?path, ?meshes⟩
  case output =>
    intro entry hentry
    obtain ⟨_, _, hstep⟩ := exists_step_of_foldlM h.output entry hentry
    exact mem_of_setOutput hstep
  case defaults =>
    intro entry hentry
    obtain ⟨_, _, hstep⟩ := exists_step_of_foldlM h.defaults entry hentry
    exact mem_optionKeys_of_setOption hstep
  case path =>
    intro entry hentry
    obtain ⟨_, heach⟩ := (Value.ordered_table_iff _).mp (ordered_meshValues htable)
    obtain ⟨mesh, hmesh⟩ := (exists_mapM_iff _ _).mp ⟨_, h.meshes⟩ entry hentry
    exact ⟨_,
      (readsMesh_of_readMesh (heach entry hentry) (readNamedMesh_eq_ok_iff.mp hmesh).2).path⟩
  case meshes =>
    intro entry hentry field hfield
    by_contra hne
    have hother : field ∈ others (ownFields entry.2) := mem_others_iff.mpr ⟨hfield, not_or.mp hne⟩
    rw [others_eq_nil_of_unknownKey? htable h hunknown hentry] at hother
    cases hother

theorem layered_of_readsParts (htable : (Value.table table).Ordered) (h : ReadsParts table draft) :
    List.Forall₂ (Layered table draft.defaults) (meshValues table)
      (draft.meshes.map fun mesh => (mesh.1, mesh.2.entry)) := by
  have hkeys := nodup_sharedFields htable
  refine List.forall₂_map_right_iff.mpr ((readsMesh_of_readsParts htable h).imp ?_)
  rintro entry mesh ⟨hname, hmesh⟩
  refine ⟨hname, hmesh.path, fun field => ?_, ?_, congrArg some hname⟩
  · obtain ⟨shared, hshared, hget⟩ := exists_given_field field hkeys h.defaults
    refine ⟨_, shared, hmesh.fields field, hshared, ?_⟩
    rw [← hget, ← field.get_apply]
    cases field <;> rfl
  · obtain ⟨shared, hshared, hincludes⟩ := exists_given_includes hkeys h.defaults
    exact ⟨shared, hshared, hincludes⟩

end Strict

section Others

variable {table : Table} {value : Value}

theorem firstOther_of_findSome? (htable : (Value.table table).Ordered) {mesh key : String}
    (h : ((meshValues table).findSome? fun entry =>
      (others (ownFields entry.2)).head?.map fun other => (entry.1, other.1)) = some (mesh, key)) :
    FirstOther table mesh key := by
  obtain ⟨before, ⟨name, value⟩, after, heq, hhead, hbefore⟩ := List.findSome?_eq_some_iff.mp h
  obtain ⟨⟨_, found⟩, hothers, hnamed⟩ := Option.map_eq_some_iff.mp hhead
  obtain ⟨rfl, rfl⟩ := Prod.mk.inj hnamed
  have hmem : (name, value) ∈ meshValues table := by
    rw [heq]
    exact List.mem_append_right before List.mem_cons_self
  obtain ⟨hascending, heach⟩ := (Value.ordered_table_iff _).mp (ordered_meshValues htable)
  obtain ⟨rest, hrest⟩ := List.head?_eq_some_iff.mp hothers
  refine ⟨⟨value, hmem, ?_, ?_⟩, ?_⟩
  · rw [hasOther_iff, hrest]
    exact List.mem_cons_self
  · -- the keys of a mesh are in ascending order, so the first that is found is the least
    intro other hother
    rw [hasOther_iff, hrest, List.map_cons] at hother
    obtain ⟨hfields, _⟩ := (Value.ordered_table_iff _).mp (ordered_ownFields (heach _ hmem))
    have hordered : Ascending (others (ownFields value)) := hfields.sublist List.filter_sublist
    rw [hrest] at hordered
    rcases List.mem_cons.mp hother with rfl | hlater
    · exact Std.le_refl _
    · obtain ⟨entry, hentry, rfl⟩ := List.mem_map.mp hlater
      exact Std.le_of_lt ((List.pairwise_cons.mp hordered).1 entry hentry)
  · intro entry hentry other hother
    rw [heq] at hentry hascending
    rcases List.mem_append.mp hentry with hearlier | hlater
    · have hnone := List.head?_eq_none_iff.mp (Option.map_eq_none_iff.mp (hbefore entry hearlier))
      rw [hasOther_iff, hnone] at hother
      cases hother
    · rcases List.mem_cons.mp hlater with rfl | hlater
      · exact Std.le_refl _
      · have hordered := (List.pairwise_append.mp hascending).2.1
        exact Std.le_of_lt ((List.pairwise_cons.mp hordered).1 entry hlater)

end Others

section Completion

variable {table : Table} {value : Value} {draft next : ManifestDraft} {key : String}

theorem isReadable_table_iff (low high : Int) (table : Table) :
    (Value.table table).isReadable low high = true ↔
      ∀ entry ∈ table, entry.2.isReadable low high = true := by
  rw [Value.isReadable]
  induction table with
  | nil => simp [Toml.areReadableEntries]
  | cons entry table ih => rw [Toml.areReadableEntries, Bool.and_eq_true, ih, List.forall_mem_cons]

theorem lookup_filter (p : String → Bool) (hkey : p key = true) (table : Table) :
    (table.filter fun entry => p entry.1).lookup key = table.lookup key := by
  induction table with
  | nil => rfl
  | cons entry table ih =>
    rw [List.filter_cons, List.lookup_cons]
    split
    · rw [List.lookup_cons, ih]
    · rename_i hdropped
      have hbeq : (key == entry.1) = false :=
        beq_eq_false_iff_ne.mpr fun heq => hdropped (heq ▸ hkey)
      rw [hbeq, ih]

/-- Keys that a mesh should not have do not keep it from being read. -/
theorem exists_readMesh {draft : MeshDraft}
    (hreadable : ∀ other ∈ others (ownFields value),
      other.2.isReadable wholeRange.1 wholeRange.2 = true)
    (h : readMesh (withoutOtherKeys value) = .ok draft) :
    ∃ result, readMesh value = .ok result := by
  cases value with
  | table table =>
    obtain ⟨hpath, hkept, hwalk⟩ := readMesh_table_eq_ok_iff.mp h
    rw [isReadable_table_iff] at hkept
    have hkept_of : ∀ entry ∈ table, ¬IsOther entry.1 →
        entry ∈ table.filter fun entry => ¬IsOther entry.1 :=
      fun entry hentry hother => List.mem_filter.mpr ⟨hentry, by simpa using hother⟩
    have hsteps : ∀ entry ∈ table, ∀ state,
        ∃ next, addMeshKey state entry.1 entry.2 = .ok next := by
      intro entry hentry state
      by_cases hother : IsOther entry.1
      · exact ⟨_, addMeshKey_of_isOther hother state entry.2⟩
      · obtain ⟨_, _, hstep⟩ := exists_step_of_foldlM hwalk entry (hkept_of entry hentry hother)
        exact exists_addMeshKey hstep state
    obtain ⟨⟨overrides, unknownKeys⟩, hwalked⟩ := exists_foldlM_eq_ok hsteps ({}, [])
    refine ⟨⟨⟨draft.entry.path, overrides⟩, unknownKeys⟩,
      readMesh_table_eq_ok_iff.mpr ⟨?_, ?_, hwalked⟩⟩
    · rw [← hpath]
      exact (lookup_filter (fun key => ¬IsOther key) (by decide) table).symm
    · rw [isReadable_table_iff]
      intro entry hentry
      by_cases hother : IsOther entry.1
      · exact hreadable entry (mem_others_iff.mpr ⟨hentry, hother⟩)
      · exact hkept entry (hkept_of entry hentry hother)
  | _ => exact ⟨draft, h⟩

theorem exists_readMeshes {meshes : List (String × MeshDraft)}
    (hreadable : ∀ mesh ∈ meshesOf value, ∀ other ∈ others (ownFields mesh.2),
      other.2.isReadable wholeRange.1 wholeRange.2 = true)
    (h : readMeshes (withoutOtherKeysOfMeshes value) = .ok meshes) :
    ∃ result, readMeshes value = .ok result := by
  cases value with
  | table table =>
    refine (exists_mapM_iff readNamedMesh table).mpr fun mesh hmesh => ?_
    obtain ⟨named, hnamed⟩ :=
      (exists_mapM_iff readNamedMesh _).mp ⟨meshes, h⟩ (mesh.1, withoutOtherKeys mesh.2)
      (List.mem_map_of_mem hmesh)
    obtain ⟨draft, hdraft⟩ :=
      exists_readMesh (hreadable mesh hmesh) (readNamedMesh_eq_ok_iff.mp hnamed).2
    exact ⟨(mesh.1, draft), readNamedMesh_eq_ok_iff.mpr ⟨rfl, hdraft⟩⟩
  | _ => exact ⟨meshes, h⟩

theorem exists_setPart (h : setPart draft key value = .ok next) (state : ManifestDraft) :
    ∃ result, setPart state key value = .ok result := by
  obtain ⟨part, rfl, read, hread, _⟩ := setPart_eq_ok h
  rw [setPart_key, hread]
  exact ⟨_, rfl⟩

/-- Keys that meshes should not have do not keep the document from being read. -/
theorem exists_readManifest (htable : (Value.table table).Ordered)
    (hreadable : ∀ mesh ∈ meshValues table, ∀ other ∈ others (ownFields mesh.2),
      other.2.isReadable wholeRange.1 wholeRange.2 = true)
    (h : readManifest (withoutOthers table) = .ok draft) :
    ∃ result, readManifest table = .ok result := by
  refine exists_foldlM_eq_ok (fun entry hentry state => ?_) ({} : ManifestDraft)
  obtain ⟨_, _, hstep⟩ := exists_step_of_foldlM h _ (List.mem_map_of_mem hentry)
  obtain ⟨key, value⟩ := entry
  by_cases hkey : key = "meshes"
  · subst hkey
    rw [if_pos rfl] at hstep
    have hvalues : meshValues table = meshesOf value := by
      rw [meshValues, lookup_of_mem (nodup_keys htable) hentry]
      rfl
    rw [hvalues] at hreadable
    obtain ⟨meshes, hmeshes⟩ := exists_readMeshes hreadable (get_of_setPart .meshes hstep)
    exact ⟨_, (bind_eq_ok_iff _ _ _).mpr ⟨meshes, hmeshes, rfl⟩⟩
  · rw [if_neg hkey] at hstep
    exact exists_setPart hstep state

end Completion

section Target

variable {table other : Table} {draft drawn : ManifestDraft}

theorem defaults_of_sameButTarget (htable : (Value.table table).Ordered)
    (hother : (Value.table other).Ordered) (hsame : SameButTarget table other)
    (h : ReadsParts table draft) (h' : ReadsParts other drawn) :
    ∃ symbol directory,
      drawn.defaults = { draft.defaults with symbol := symbol, outputDirectory := directory } := by
  have hkeys := nodup_sharedFields htable
  have hkeys' := nodup_sharedFields hother
  refine ⟨_, _, SharedField.eq_of_get (fun field => ?_) ?_⟩
  · obtain ⟨given, hgiven, hget⟩ := exists_given_field field hkeys h.defaults
    obtain ⟨given', hgiven', hget'⟩ := exists_given_field field hkeys' h'.defaults
    have hlookup : (sharedFields other).lookup field.key =
        (sharedFields table).lookup field.key := by
      refine hsame.shared field.key ?_ ?_ <;> cases field <;> decide
    rw [hget', hgiven.unique hlookup hgiven', hget]
  · obtain ⟨given, hgiven, hget⟩ := exists_given_includes hkeys h.defaults
    obtain ⟨given', hgiven', hget'⟩ := exists_given_includes hkeys' h'.defaults
    rw [hget', hgiven.unique (hsame.shared "includes" (by decide) (by decide)) hgiven', hget]

/-- Such documents give manifests that differ in the shared symbol and the
shared directory alone. -/
theorem eq_of_sameButTarget (htable : (Value.table table).Ordered)
    (hother : (Value.table other).Ordered) (hsame : SameButTarget table other)
    (h : ReadsParts table draft) (h' : ReadsParts other drawn) :
    drawn.output = draft.output ∧ drawn.meshes = draft.meshes ∧ ∃ symbol directory,
      drawn.defaults = { draft.defaults with symbol := symbol, outputDirectory := directory } := by
  have houtput := h'.output
  rw [outputFields, hsame.parts "output" (by decide), ← outputFields, h.output] at houtput
  have hmeshes := h'.meshes
  rw [meshValues, hsame.parts "meshes" (by decide), ← meshValues, h.meshes] at hmeshes
  exact ⟨(Except.ok.inj houtput).symm, (Except.ok.inj hmeshes).symm,
    defaults_of_sameButTarget htable hother hsame h h'⟩

end Target

end Document

namespace Manifest

open Document

section Target

variable {manifest : Manifest} {fs : FileSystem}

theorem runJobs_map_congr {α : Type} {f g : α → Job} (h : ∀ x fs, (f x).run fs = (g x).run fs)
    (xs : List α) :
    runJobs fs (xs.map f) = runJobs fs (xs.map g) := by
  induction xs generalizing fs with
  | nil => rfl
  | cons x xs ih => simp only [List.map_cons, runJobs, h, ih]

/-- The manifest with another shared symbol and another shared directory of the output. -/
def withTarget (manifest : Manifest) (symbol : Option String) (output : Option Path) : Manifest :=
  { manifest with
    defaults := { manifest.defaults with symbol := symbol, outputDirectory := output } }

theorem build_withTarget (manifest : Manifest) (symbol : Option String) (output : Option Path)
    (fs : FileSystem) (instead : Option Path) :
    (manifest.withTarget symbol output).build fs instead = manifest.build fs instead := by
  have hdirectory : (manifest.withTarget symbol output).outputDirectory instead =
      manifest.outputDirectory instead :=
    rfl
  have hmeshes : (manifest.withTarget symbol output).meshes = manifest.meshes := rfl
  have hrun : ∀ directory mesh base,
      ((manifest.withTarget symbol output).job directory mesh).run base =
        (manifest.job directory mesh).run base :=
    fun _ _ _ => rfl
  have hconclude : (manifest.withTarget symbol output).conclude = manifest.conclude := rfl
  simp only [build, hdirectory, hmeshes, runJobs_map_congr (hrun _), hconclude]

theorem build_eq_of_sameButTarget {path : Path} {table other : Table} {drawn : Manifest}
    (htable : (Value.table table).Ordered) (hother : (Value.table other).Ordered)
    (hsame : SameButTarget table other) (h : ofTable path table = .ok manifest)
    (h' : ofTable path other = .ok drawn) (fs : FileSystem) (instead : Option Path) :
    drawn.build fs instead = manifest.build fs instead := by
  obtain ⟨draft, hdraft, _, hmanifest⟩ := exists_draft_of_ofTable h
  obtain ⟨draft', hdraft', _, hdrawn⟩ := exists_draft_of_ofTable h'
  obtain ⟨houtput, hmeshes, symbol, directory, hdefaults⟩ := eq_of_sameButTarget htable hother hsame
    (readsParts_of_readManifest htable hdraft) (readsParts_of_readManifest hother hdraft')
  have htarget : drawn = manifest.withTarget symbol directory := by
    rw [hdrawn, hmanifest, houtput, hmeshes, hdefaults]
    rfl
  rw [htarget]
  exact build_withTarget manifest symbol directory fs instead

end Target

section Layers

variable {fs : FileSystem} {path : Path} {table : Table}

theorem exists_unknownKey (htable : (Value.table table).Ordered) {manifest : Manifest}
    (hload : ofTable path (withoutOthers table) = .ok manifest)
    (hreadable : ∀ mesh ∈ meshValues table, ∀ other ∈ others (ownFields mesh.2),
      other.2.isReadable wholeRange.1 wholeRange.2 = true)
    (hothers : ∃ mesh ∈ meshValues table, ∃ key, HasOther mesh.2 key) :
    ∃ mesh key, FirstOther table mesh key ∧
      ofTable path table = .error (.unknownKey path mesh key) := by
  obtain ⟨_, hrest, _⟩ := exists_draft_of_ofTable hload
  obtain ⟨draft, hdraft⟩ := exists_readManifest htable hreadable hrest
  have hparts := readsParts_of_readManifest htable hdraft
  cases hunknown : draft.unknownKey? with
  | none =>
    obtain ⟨mesh, hmesh, key, hkey⟩ := hothers
    rw [hasOther_iff, others_eq_nil_of_unknownKey? htable hparts hunknown hmesh] at hkey
    cases hkey
  | some found =>
    obtain ⟨mesh, key⟩ := found
    refine ⟨mesh, key, firstOther_of_findSome? htable ?_, ?_⟩
    · rw [← unknownKey?_eq_of_readsParts htable hparts, hunknown]
    · unfold ofTable
      rw [hdraft]
      simp only [hunknown]

/-- A manifest is read from a document only if all its keys are known and its meshes are given by
paths; each field of a mesh is then its own, or the shared one, or the default one, and its symbol
is its name, while the shared symbol and directory are not asked for in a build. If all but the keys
of meshes is in order, and what stands under these can be read, the fault is the least unknown key
of the first mesh with one. -/
theorem ofTable_layered (htable : (Value.table table).Ordered) (path : Path) :
    (∀ manifest, ofTable path table = .ok manifest →
      Strict table ∧ List.Forall₂ (Layered table manifest.defaults)
        (meshValues table) manifest.meshes ∧
      ∀ other drawn, (Value.table other).Ordered → SameButTarget table other →
        ofTable path other = .ok drawn →
        ∀ fs instead, drawn.build fs instead = manifest.build fs instead) ∧
    (∀ manifest, ofTable path (withoutOthers table) = .ok manifest →
      (∀ mesh ∈ meshValues table, ∀ other ∈ others (ownFields mesh.2),
        other.2.isReadable wholeRange.1 wholeRange.2 = true) →
      (∃ mesh ∈ meshValues table, ∃ key, HasOther mesh.2 key) →
      ∃ mesh key, FirstOther table mesh key ∧
        ofTable path table = .error (.unknownKey path mesh key)) ∧
    ∀ fs text, fs.readText path = .ok text → Toml.ofText? text = some table →
      Manifest.load fs path = ofTable path table := by
  refine ⟨fun manifest h => ⟨?strict, ?layered, ?target⟩, fun manifest h => ?others,
    fun fs text htext hread => ?text⟩
  case strict =>
    obtain ⟨draft, hdraft, hunknown, _⟩ := exists_draft_of_ofTable h
    exact strict_of_readsParts htable (readsParts_of_readManifest htable hdraft) hunknown
  case layered =>
    obtain ⟨draft, hdraft, _, rfl⟩ := exists_draft_of_ofTable h
    exact layered_of_readsParts htable (readsParts_of_readManifest htable hdraft)
  case target =>
    exact fun other drawn hother hsame hdrawn fs instead =>
      build_eq_of_sameButTarget htable hother hsame h hdrawn fs instead
  case others => exact exists_unknownKey htable h
  case text =>
    unfold Manifest.load
    rw [htext]
    simp only [Except.mapError, bind, Except.bind, hread]

/-- A document of two meshes, of which the second one has a field of its own. -/
def hills (symbol : String) (hill : Value) : Table :=
  [("defaults", .table [("default_tag", .text "ICE"), ("symbol", .text symbol)]),
    ("meshes", .table [("hill", hill),
      ("rock", .table [("default_tag", .text "MUD"), ("path", .text "b.obj")])])]

theorem ordered_of_keys {table : Table} (keys : List String) (hkeys : table.map Prod.fst = keys)
    (hascending : keys.Pairwise (· < ·)) (heach : ∀ entry ∈ table, entry.2.Ordered) :
    (Value.table table).Ordered :=
  (Value.ordered_table_iff table).mpr ⟨(ascending_iff table).mpr (hkeys ▸ hascending), heach⟩

theorem ordered_hills (symbol : String) {hill : Value} (h : hill.Ordered) :
    (Value.table (hills symbol hill)).Ordered := by
  refine ordered_of_keys ["defaults", "meshes"] rfl (by decide) ?_
  simp only [hills, List.forall_mem_cons, List.not_mem_nil, false_implies, implies_true, and_true]
  constructor
  · exact ordered_of_keys ["default_tag", "symbol"] rfl (by decide) (by simp [Value.Ordered.text])
  · refine ordered_of_keys ["hill", "rock"] rfl (by decide) ?_
    simp only [List.forall_mem_cons, List.not_mem_nil, false_implies, implies_true, and_true]
    exact ⟨h, ordered_of_keys ["default_tag", "path"] rfl (by decide)
      (by simp [Value.Ordered.text])⟩

theorem sameButTarget_hills (symbol other : String) (hill : Value) :
    SameButTarget (hills symbol hill) (hills other hill) := by
  refine ⟨fun key hkey => ?_, fun key hsymbol _ => ?_⟩
  · have hbeq : (key == "defaults") = false := beq_eq_false_iff_ne.mpr hkey
    simp only [hills, List.lookup_cons, hbeq]
  · have hbeq : (key == "symbol") = false := beq_eq_false_iff_ne.mpr hsymbol
    have hshared : ∀ symbol, sharedFields (hills symbol hill) =
      [("default_tag", .text "ICE"), ("symbol", .text symbol)] := fun _ => rfl
    simp only [hshared, List.lookup_cons, hbeq]

theorem ofTable_layered_hills :
    let plain := hills "ice" (.text "a.obj")
    let stray :=
      hills "ice" (.table [("includes", .array []), ("path", .text "a.obj"), ("symbol", .text "x")])
    (∃ manifest, ofTable ⟨"m.toml"⟩ plain = .ok manifest ∧ Strict plain ∧
      List.Forall₂ (Layered plain manifest.defaults) (meshValues plain) manifest.meshes ∧
      ∃ drawn, ofTable ⟨"m.toml"⟩ (hills "sand" (.text "a.obj")) = .ok drawn ∧
        ∀ fs instead, drawn.build fs instead = manifest.build fs instead) ∧
    FirstOther stray "hill" "includes" ∧
      ofTable ⟨"m.toml"⟩ stray = .error (.unknownKey ⟨"m.toml"⟩ "hill" "includes") := by
  intro plain stray
  have hplain : (Value.table plain).Ordered := ordered_hills "ice" (.text "a.obj")
  have hsand : (Value.table (hills "sand" (.text "a.obj"))).Ordered :=
    ordered_hills "sand" (.text "a.obj")
  have hstray : (Value.table stray).Ordered := ordered_hills "ice"
    (ordered_of_keys ["includes", "path", "symbol"] rfl (by decide)
      (by simp [Value.Ordered.text, Value.Ordered.array]))
  constructor
  · obtain ⟨manifest, hmanifest⟩ :=
      (failure?_eq_none_iff (ofTable ⟨"m.toml"⟩ plain)).mp (by decide +kernel)
    obtain ⟨drawn, hdrawn⟩ :=
      (failure?_eq_none_iff (ofTable ⟨"m.toml"⟩ (hills "sand" (.text "a.obj")))).mp
        (by decide +kernel)
    obtain ⟨hstrict, hlayered, hbuild⟩ := (ofTable_layered hplain ⟨"m.toml"⟩).1 manifest hmanifest
    exact ⟨manifest, hmanifest, hstrict, hlayered, drawn, hdrawn,
      hbuild _ drawn hsand (sameButTarget_hills "ice" "sand" _) hdrawn⟩
  · obtain ⟨manifest, hmanifest⟩ :=
      (failure?_eq_none_iff (ofTable ⟨"m.toml"⟩ (withoutOthers stray))).mp (by decide +kernel)
    have hothers : ∃ mesh ∈ meshValues stray, ∃ key ∈ (ownFields mesh.2).map Prod.fst,
        IsOther key := by
      decide +kernel
    have hfault : ofTable ⟨"m.toml"⟩ stray = .error (.unknownKey ⟨"m.toml"⟩ "hill" "includes") := by
      decide +kernel
    obtain ⟨mesh, key, hfirst, hnamed⟩ := (ofTable_layered hstray ⟨"m.toml"⟩).2.1 manifest hmanifest
      (by decide +kernel) (by simpa [HasOther] using hothers)
    cases hfault.symm.trans hnamed
    exact ⟨hfirst, hfault⟩

end Layers

end Manifest

end CollisionMesh
