import CollisionMesh.Manifest.Document
import CollisionMesh.Proofs.Traversal

/-!
# Fields that meshes share

The seven options that a mesh of a manifest may have of its own, each told by its key and by
how it is read. A walk over a table sets every field for itself: to what is read under its
key, if the key is there.
-/

namespace CollisionMesh

set_option autoImplicit false

open Toml (Value Table)

inductive SharedField where
  | scale
  | axisMap
  | defaultSurface
  | defaultTerrain
  | malformedVertex
  | materialUse
  | materialLead
  deriving DecidableEq, Repr

namespace SharedField

def Carrier : SharedField → Type
  | scale => Binary64
  | axisMap => AxisMap
  | defaultSurface => String
  | defaultTerrain => String
  | malformedVertex => VertexPolicy
  | materialUse => MaterialUse
  | materialLead => String

def key : SharedField → String
  | scale => "scale"
  | axisMap => "axis_map"
  | defaultSurface => "default_tag"
  | defaultTerrain => "default_terrain"
  | malformedVertex => "on_malformed_vertex"
  | materialUse => "tag_binding"
  | materialLead => "tag_prefix"

def keys : List String :=
  ["scale", "axis_map", "default_tag", "default_terrain", "on_malformed_vertex", "tag_binding",
    "tag_prefix"]

def read : (field : SharedField) → Value → Except DocumentFault field.Carrier
  | scale => Document.readScale
  | axisMap => Document.readAxisMap
  | defaultSurface => Document.readText
  | defaultTerrain => Document.readText
  | malformedVertex => Document.readNamed Document.policyNamed?
  | materialUse => Document.readNamed Document.materialUseNamed?
  | materialLead => Document.readText

def get : (field : SharedField) → Options → field.Carrier
  | scale => Options.scale
  | axisMap => Options.axisMap
  | defaultSurface => Options.defaultSurface
  | defaultTerrain => Options.defaultTerrain
  | malformedVertex => Options.malformedVertex
  | materialUse => Options.materialUse
  | materialLead => Options.materialLead

def override? : (field : SharedField) → Overrides → Option field.Carrier
  | scale => Overrides.scale
  | axisMap => Overrides.axisMap
  | defaultSurface => Overrides.defaultSurface
  | defaultTerrain => Overrides.defaultTerrain
  | malformedVertex => Overrides.malformedVertex
  | materialUse => Overrides.materialUse
  | materialLead => Overrides.materialLead

def set : (field : SharedField) → field.Carrier → Overrides → Overrides
  | scale => fun value overrides => { overrides with scale := some value }
  | axisMap => fun value overrides => { overrides with axisMap := some value }
  | defaultSurface => fun value overrides => { overrides with defaultSurface := some value }
  | defaultTerrain => fun value overrides => { overrides with defaultTerrain := some value }
  | malformedVertex => fun value overrides => { overrides with malformedVertex := some value }
  | materialUse => fun value overrides => { overrides with materialUse := some value }
  | materialLead => fun value overrides => { overrides with materialLead := some value }

theorem mem_keys_iff (key : String) : key ∈ keys ↔ ∃ field : SharedField, field.key = key := by
  constructor
  · intro h
    simp only [keys, List.mem_cons, List.not_mem_nil, or_false] at h
    rcases h with rfl | rfl | rfl | rfl | rfl | rfl | rfl
    · exact ⟨scale, rfl⟩
    · exact ⟨axisMap, rfl⟩
    · exact ⟨defaultSurface, rfl⟩
    · exact ⟨defaultTerrain, rfl⟩
    · exact ⟨malformedVertex, rfl⟩
    · exact ⟨materialUse, rfl⟩
    · exact ⟨materialLead, rfl⟩
  · rintro ⟨field, rfl⟩
    cases field <;> decide

theorem key_injective : Function.Injective key := by
  intro a b h
  cases a <;> cases b <;> first | rfl | exact absurd h (by decide)

@[simp] theorem override?_set (field : SharedField) (value : field.Carrier)
    (overrides : Overrides) :
    field.override? (field.set value overrides) = some value := by
  cases field <;> rfl

theorem override?_set_of_ne {field other : SharedField} (h : field ≠ other) (value : other.Carrier)
    (overrides : Overrides) :
    field.override? (other.set value overrides) = field.override? overrides := by
  cases field <;> cases other <;> first | rfl | exact absurd rfl h

@[simp] theorem override?_empty (field : SharedField) : field.override? {} = none := by
  cases field <;> rfl

theorem get_apply (field : SharedField) (overrides : Overrides) (base : Options) :
    field.get (overrides.apply base) = (field.override? overrides).getD (field.get base) := by
  cases field <;> rfl

theorem eq_of_get {options other : Options}
    (h : ∀ field : SharedField, field.get options = field.get other)
    (hincludes : options.includes = other.includes) :
    options =
      { other with symbol := options.symbol, outputDirectory := options.outputDirectory } := by
  rw [Options.mk.injEq]
  exact ⟨h .scale, h .axisMap, h .defaultSurface, h .defaultTerrain, h .malformedVertex,
    h .materialUse, h .materialLead, rfl, hincludes, rfl⟩

theorem setOverride_key (field : SharedField) (overrides : Overrides) (value : Value) :
    Document.setOverride overrides field.key value =
      some ((field.read value).map fun read => field.set read overrides) := by
  cases field <;> rfl

theorem setOverride_eq_none {key : String} (h : key ∉ keys) (overrides : Overrides)
    (value : Value) :
    Document.setOverride overrides key value = none := by
  simp only [keys, List.mem_cons, List.not_mem_nil, or_false, not_or] at h
  obtain ⟨hscale, haxis, hsurface, hterrain, hpolicy, huse, hlead⟩ := h
  unfold Document.setOverride
  split <;> first | rfl | contradiction

end SharedField

namespace Document

/-- What is read under a key of a table, if the key is there. -/
def Given {α : Type} (table : Table) (key : String) (read : Value → Except DocumentFault α) :
    Option α → Prop
  | none => table.lookup key = none
  | some result => ∃ value, table.lookup key = some value ∧ read value = .ok result

theorem Given.unique {α : Type} {table other : Table} {key : String}
    {read : Value → Except DocumentFault α} {given given' : Option α}
    (hlookup : other.lookup key = table.lookup key) (h : Given table key read given)
    (h' : Given other key read given') : given' = given := by
  unfold Given at h h'
  rw [hlookup] at h'
  cases given with
  | none =>
    cases given' with
    | none => rfl
    | some result' =>
      obtain ⟨value, hvalue, _⟩ := h'
      exact nomatch h.symm.trans hvalue
  | some result =>
    obtain ⟨value, hvalue, hread⟩ := h
    cases given' with
    | none => exact nomatch h'.symm.trans hvalue
    | some result' =>
      obtain ⟨value', hvalue', hread'⟩ := h'
      obtain rfl := Option.some.inj (hvalue.symm.trans hvalue')
      exact congrArg some (Except.ok.inj (hread'.symm.trans hread))

/-- A part that a walk sets under one key is what stands under it, or else what the
part was at the start. -/
theorem exists_given {σ α : Type} {part : σ → α} {read : Value → Except DocumentFault α}
    {f : σ → String × Value → Except DocumentFault σ} {table : Table} {key : String}
    {start result : σ} (hkeys : (table.map Prod.fst).Nodup) (h : table.foldlM f start = .ok result)
    (hkey : ∀ value state next, f state (key, value) = .ok next → read value = .ok (part next))
    (hother : ∀ entry state next, entry.1 ≠ key → f state entry = .ok next →
      part next = part state) :
    ∃ given, Given table key read given ∧ part result = given.getD (part start) := by
  obtain ⟨hsome, hnone⟩ :=
    part_of_foldlM part (fun value result => read value = .ok result) hkey hother hkeys h
  cases hlookup : table.lookup key with
  | some value => exact ⟨some (part result), ⟨value, hlookup, hsome value hlookup⟩, rfl⟩
  | none => exact ⟨none, hlookup, hnone hlookup⟩

section Options

variable {options next : Options} {key : String} {value : Value} {table : Table}

theorem setOption_key (field : SharedField) (options : Options) (value : Value) :
    setOption options field.key value =
      (field.read value).map fun read => (field.set read {}).apply options := by
  unfold setOption
  rw [field.setOverride_key]
  cases field.read value <;> rfl

theorem get_of_setOption (field : SharedField) (h : setOption options field.key value = .ok next) :
    field.read value = .ok (field.get next) := by
  rw [setOption_key] at h
  obtain ⟨read, hread, rfl⟩ := exists_of_map_eq_ok h
  rw [hread, field.get_apply, field.override?_set]
  rfl

theorem setOption_eq_ok (h : setOption options key value = .ok next) :
    (∃ field : SharedField, field.key = key ∧ ∃ read, next = (field.set read {}).apply options) ∨
      (key = "symbol" ∧ ∃ symbol, next = { options with symbol := symbol }) ∨
      (key = "includes" ∧ ∃ includes, readTexts value = .ok includes ∧
        next = { options with includes := includes }) ∨
      (key = "output_dir" ∧ ∃ directory, next = { options with outputDirectory := directory }) := by
  by_cases hkey : key ∈ SharedField.keys
  · obtain ⟨field, rfl⟩ := (SharedField.mem_keys_iff key).mp hkey
    rw [setOption_key] at h
    obtain ⟨read, _, rfl⟩ := exists_of_map_eq_ok h
    exact .inl ⟨field, rfl, read, rfl⟩
  · unfold setOption at h
    rw [SharedField.setOverride_eq_none hkey] at h
    simp only at h
    split at h
    · obtain ⟨symbol, _, h⟩ := (bind_eq_ok_iff _ _ _).mp h
      cases h
      exact .inr (.inl ⟨rfl, _, rfl⟩)
    · obtain ⟨includes, hincludes, h⟩ := (bind_eq_ok_iff _ _ _).mp h
      cases h
      exact .inr (.inr (.inl ⟨rfl, _, hincludes, rfl⟩))
    · obtain ⟨directory, _, h⟩ := (bind_eq_ok_iff _ _ _).mp h
      cases h
      exact .inr (.inr (.inr ⟨rfl, _, rfl⟩))
    · cases h

theorem get_of_setOption_of_ne (field : SharedField) (hne : key ≠ field.key)
    (h : setOption options key value = .ok next) : field.get next = field.get options := by
  rcases setOption_eq_ok h with ⟨other, rfl, read, rfl⟩ | ⟨_, _, rfl⟩ | ⟨_, _, _, rfl⟩ | ⟨_, _, rfl⟩
  · have hother : field ≠ other := fun heq => hne (congrArg SharedField.key heq).symm
    rw [field.get_apply, SharedField.override?_set_of_ne hother, field.override?_empty]
    rfl
  · cases field <;> rfl
  · cases field <;> rfl
  · cases field <;> rfl

theorem includes_of_setOption (h : setOption options "includes" value = .ok next) :
    readTexts value = .ok next.includes := by
  rcases setOption_eq_ok h with ⟨field, hfield, _⟩ | ⟨hkey, _⟩ | ⟨_, _, hread, rfl⟩ | ⟨hkey, _⟩
  · cases field <;> exact absurd hfield (by decide)
  · exact absurd hkey (by decide)
  · exact hread
  · exact absurd hkey (by decide)

theorem includes_of_setOption_of_ne (hne : key ≠ "includes")
    (h : setOption options key value = .ok next) :
    next.includes = options.includes := by
  rcases setOption_eq_ok h with ⟨_, _, _, rfl⟩ | ⟨_, _, rfl⟩ | ⟨hkey, _⟩ | ⟨_, _, rfl⟩
  · rfl
  · rfl
  · exact absurd hkey hne
  · rfl

theorem mem_optionKeys_of_setOption (h : setOption options key value = .ok next) :
    key ∈ optionKeys := by
  rcases setOption_eq_ok h with ⟨field, rfl, _⟩ | ⟨rfl, _⟩ | ⟨rfl, _⟩ | ⟨rfl, _⟩
  · cases field <;> decide
  · decide
  · decide
  · decide

theorem exists_given_field (field : SharedField) (hkeys : (table.map Prod.fst).Nodup)
    (h : readOptionTable table = .ok options) : ∃ given, Given table field.key field.read given ∧
      field.get options = given.getD (field.get Options.default) :=
  exists_given hkeys h (fun _ _ _ => get_of_setOption field) fun _ _ _ =>
    get_of_setOption_of_ne field

theorem exists_given_includes (hkeys : (table.map Prod.fst).Nodup)
    (h : readOptionTable table = .ok options) :
    ∃ given, Given table "includes" readTexts given ∧
      options.includes = given.getD Options.default.includes := by
  obtain ⟨given, hgiven, hpart⟩ := exists_given hkeys h (fun _ _ _ => includes_of_setOption)
    fun _ _ _ => includes_of_setOption_of_ne
  exact ⟨given, hgiven, hpart⟩

end Options

section Meshes

variable {draft next : Overrides × List String} {key : String} {value : Value} {table : Table}

/-- Whether a mesh should not have a key. -/
def IsOther (key : String) : Prop := key ≠ "path" ∧ key ∉ SharedField.keys

instance (key : String) : Decidable (IsOther key) := inferInstanceAs (Decidable (_ ∧ _))

/-- The keys that a mesh should not have, with their values. -/
def others (table : Table) : Table := table.filter fun entry => IsOther entry.1

theorem others_cons_of_isOther {entry : String × Value} (h : IsOther entry.1) (table : Table) :
    others (entry :: table) = entry :: others table :=
  List.filter_cons_of_pos (by simpa using h)

theorem others_cons_of_not_isOther {entry : String × Value} (h : ¬IsOther entry.1) (table : Table) :
    others (entry :: table) = others table :=
  List.filter_cons_of_neg (by simpa using h)

theorem addMeshKey_of_isOther (h : IsOther key) (draft : Overrides × List String) (value : Value) :
    addMeshKey draft key value = .ok (draft.1, draft.2 ++ [key]) := by
  rw [addMeshKey, if_neg h.1, SharedField.setOverride_eq_none h.2]

theorem addMeshKey_key (field : SharedField) (draft : Overrides × List String) (value : Value) :
    addMeshKey draft field.key value =
      if isPlainChoice value then
        (field.read value).map fun read => (field.set read draft.1, draft.2)
      else .error .malformed := by
  have hpath : field.key ≠ "path" := by cases field <;> decide
  rw [addMeshKey, if_neg hpath, field.setOverride_key]
  simp only
  split
  · cases field.read value <;> rfl
  · rfl

theorem addMeshKey_eq_ok (h : addMeshKey draft key value = .ok next) :
    (key = "path" ∧ next = draft) ∨
      (∃ field : SharedField, field.key = key ∧ ∃ read, field.read value = .ok read ∧
        next = (field.set read draft.1, draft.2)) ∨
      (IsOther key ∧ next = (draft.1, draft.2 ++ [key])) := by
  by_cases hpath : key = "path"
  · rw [addMeshKey, if_pos hpath] at h
    exact .inl ⟨hpath, (Except.ok.inj h).symm⟩
  by_cases hkey : key ∈ SharedField.keys
  · obtain ⟨field, rfl⟩ := (SharedField.mem_keys_iff key).mp hkey
    rw [addMeshKey_key] at h
    split at h
    · obtain ⟨read, hread, rfl⟩ := exists_of_map_eq_ok h
      exact .inr (.inl ⟨field, rfl, read, hread, rfl⟩)
    · cases h
  · rw [addMeshKey_of_isOther ⟨hpath, hkey⟩] at h
    exact .inr (.inr ⟨⟨hpath, hkey⟩, (Except.ok.inj h).symm⟩)

theorem not_isOther_key (field : SharedField) : ¬IsOther field.key := fun h =>
  h.2 ((SharedField.mem_keys_iff _).mpr ⟨field, rfl⟩)

/-- What can be done with a key of a mesh does not hang on the other keys. -/
theorem exists_addMeshKey (h : addMeshKey draft key value = .ok next)
    (state : Overrides × List String) :
    ∃ result, addMeshKey state key value = .ok result := by
  by_cases hpath : key = "path"
  · exact ⟨state, by rw [addMeshKey, if_pos hpath]⟩
  by_cases hkey : key ∈ SharedField.keys
  · obtain ⟨field, rfl⟩ := (SharedField.mem_keys_iff key).mp hkey
    rw [addMeshKey_key] at h ⊢
    split at h
    · rename_i hplain
      obtain ⟨read, hread, _⟩ := exists_of_map_eq_ok h
      rw [if_pos hplain, hread]
      exact ⟨_, rfl⟩
    · cases h
  · exact ⟨_, addMeshKey_of_isOther ⟨hpath, hkey⟩ state value⟩

section Walk

variable {start result : Overrides × List String}

theorem unknownKeys_of_foldlM
    (h : table.foldlM (fun draft entry => addMeshKey draft entry.1 entry.2) start = .ok result) :
    result.2 = start.2 ++ (others table).map Prod.fst := by
  induction table generalizing start with
  | nil =>
    cases h
    exact (List.append_nil _).symm
  | cons entry table ih =>
    obtain ⟨next, hnext, h⟩ := (bind_eq_ok_iff _ _ _).mp h
    rw [ih h]
    rcases addMeshKey_eq_ok hnext with ⟨hpath, rfl⟩ | ⟨field, hfield, _, _, rfl⟩ | ⟨hother, rfl⟩
    · rw [others_cons_of_not_isOther fun hother => hother.1 hpath]
    · rw [others_cons_of_not_isOther (hfield ▸ not_isOther_key field)]
    · rw [others_cons_of_isOther hother, List.map_cons, List.append_assoc, List.singleton_append]

theorem override?_of_addMeshKey (field : SharedField)
    (h : addMeshKey draft field.key value = .ok next) :
    ∃ read, field.read value = .ok read ∧ field.override? next.1 = some read := by
  rcases addMeshKey_eq_ok h with ⟨hpath, _⟩ | ⟨other, hfield, read, hread, rfl⟩ | ⟨hother, _⟩
  · cases field <;> exact absurd hpath (by decide)
  · obtain rfl := SharedField.key_injective hfield
    exact ⟨read, hread, other.override?_set read _⟩
  · exact absurd hother (not_isOther_key field)

theorem override?_of_addMeshKey_of_ne (field : SharedField) (hne : key ≠ field.key)
    (h : addMeshKey draft key value = .ok next) :
    field.override? next.1 = field.override? draft.1 := by
  rcases addMeshKey_eq_ok h with ⟨_, rfl⟩ | ⟨other, hfield, read, _, rfl⟩ | ⟨_, rfl⟩
  · rfl
  · refine SharedField.override?_set_of_ne (fun heq => hne ?_) read _
    rw [heq, hfield]
  · rfl

theorem given_of_foldlM (hkeys : (table.map Prod.fst).Nodup)
    (h : table.foldlM (fun draft entry => addMeshKey draft entry.1 entry.2) ({}, []) = .ok result)
    (field : SharedField) : Given table field.key field.read (field.override? result.1) := by
  obtain ⟨hsome, hnone⟩ :=
    part_of_foldlM (fun draft : Overrides × List String => field.override? draft.1)
      (fun value override? => ∃ read, field.read value = .ok read ∧ override? = some read)
      (fun _ _ _ => override?_of_addMeshKey field)
      (fun _ _ _ => override?_of_addMeshKey_of_ne field) hkeys h
  cases hlookup : table.lookup field.key with
  | some value =>
    obtain ⟨read, hread, hoverride⟩ := hsome value hlookup
    rw [hoverride]
    exact ⟨value, hlookup, hread⟩
  | none =>
    rw [hnone hlookup, field.override?_empty]
    exact hlookup

end Walk

end Meshes

end Document

end CollisionMesh
