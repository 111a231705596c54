import CollisionMesh.Proofs.PathDirectories
import Mathlib.Data.List.Induction

/-!
# File systems as trees

Whatever stands somewhere stands in a directory, at places with proper names and nothing twice. A
walk without two dots goes down such a tree, from a directory to those in it.
-/

namespace CollisionMesh.FileSystem

set_option autoImplicit false

/-- Whether everything stands in a directory. -/
def Nested (fs : FileSystem) : Prop :=
  ∀ location node, fs.lookup location = some node → fs.lookup location.dropLast = some .directory

/-- Whether a directory stands at a location. -/
def HasDirectory (fs : FileSystem) (location : Location) : Prop :=
  fs.lookup location = some .directory

instance (fs : FileSystem) (location : Location) : Decidable (fs.HasDirectory location) :=
  match h : fs.lookup location with
  | some .directory => .isTrue h
  | some (.file _) => .isFalse fun hdirectory => by simp [HasDirectory, h] at hdirectory
  | none => .isFalse fun hdirectory => by simp [HasDirectory, h] at hdirectory

/-- A tree of files and directories with proper names. -/
structure WellFormed (fs : FileSystem) : Prop where
  unique : (fs.nodes.map Prod.fst).Nodup
  named : ∀ entry ∈ fs.nodes, ∀ name ∈ entry.1, IsName name
  nested : ∀ entry ∈ fs.nodes, fs.HasDirectory entry.1.dropLast

theorem mem_nodes_of_lookup {fs : FileSystem} {location : Location} {node : Node}
    (h : fs.lookup location = some node) (hne : location ≠ []) : (location, node) ∈ fs.nodes := by
  rw [lookup, if_neg hne] at h
  exact mem_of_lookup h

theorem lookup_of_mem_nodes {fs : FileSystem} (hfs : fs.WellFormed) {location : Location}
    {node : Node} (h : (location, node) ∈ fs.nodes) (hne : location ≠ []) :
    fs.lookup location = some node := by
  rw [lookup, if_neg hne]
  exact lookup_of_mem hfs.unique h

theorem WellFormed.nested' {fs : FileSystem} (hfs : fs.WellFormed) : fs.Nested := by
  intro location node h
  by_cases hne : location = []
  · subst hne
    rfl
  · exact hfs.nested _ (mem_nodes_of_lookup h hne)

namespace Nested

variable {fs : FileSystem}

/-- Everything above a place where something stands is a directory. -/
theorem lookup_above (hfs : fs.Nested) {location more : Location} {node : Node}
    (h : fs.lookup (location ++ more) = some node) (hne : more ≠ []) :
    fs.lookup location = some .directory := by
  induction more using List.reverseRecOn generalizing node with
  | nil => exact absurd rfl hne
  | append_singleton more name ih =>
    have habove := hfs _ _ h
    rw [← List.append_assoc, List.dropLast_concat] at habove
    by_cases hmore : more = []
    · rwa [hmore, List.append_nil] at habove
    · exact ih habove hmore

theorem insert (hfs : fs.Nested) {location : Location} {name : String} {node : Node}
    (hlocation : fs.lookup location = some .directory)
    (hnode : node = .directory ∨ fs.lookup (location ++ [name]) ≠ some .directory) :
    (fs.insert (location ++ [name]) node).Nested := by
  intro other found hfound
  have hstays : ∀ above, fs.lookup above = some .directory →
      (fs.insert (location ++ [name]) node).lookup above = some .directory := by
    intro above habove
    by_cases heq : above = location ++ [name]
    · subst heq
      rcases hnode with rfl | hnode
      · exact lookup_insert_self fs (by simp) _
      · exact absurd habove hnode
    · rwa [lookup_insert_of_ne fs heq]
  by_cases heq : other = location ++ [name]
  · rw [heq, List.dropLast_concat]
    exact hstays location hlocation
  · rw [lookup_insert_of_ne fs heq] at hfound
    exact hstays _ (hfs other found hfound)

end Nested

section Down

variable {fs now : FileSystem}

/-- Proper names lead down. -/
theorem eq_append_of_walk {start finish : Location} {names : List String}
    (hnames : ∀ name ∈ names, IsName name) (h : fs.walk start names = .ok finish) :
    finish = start ++ names := by
  induction names generalizing start with
  | nil =>
    cases h
    exact (List.append_nil _).symm
  | cons name names ih =>
    obtain ⟨hname, hrest⟩ := List.forall_mem_cons.mp hnames
    rw [walk_cons, bind_eq_ok_iff] at h
    obtain ⟨next, hstep, hwalk⟩ := h
    rw [ih hrest hwalk, eq_append_of_step_eq_ok hstep hname.2.1 hname.2.2.1, List.append_assoc,
      List.singleton_append]

/-- A walk without two dots never leaves the place where it starts upward. -/
theorem isPrefix_of_walk {start finish : Location} {names : List String} (hnames : ".." ∉ names)
    (h : fs.walk start names = .ok finish) : start <+: finish := by
  induction names generalizing start with
  | nil =>
    cases h
    exact List.prefix_rfl
  | cons name names ih =>
    rw [List.mem_cons, not_or] at hnames
    rw [walk_cons, bind_eq_ok_iff] at h
    obtain ⟨next, hstep, hwalk⟩ := h
    refine List.IsPrefix.trans ?_ (ih hnames.2 hwalk)
    by_cases hdot : name = "."
    · rw [step_of_directory (lookup_of_step_eq_ok hstep), if_pos hdot] at hstep
      cases hstep
      exact List.prefix_rfl
    · rw [eq_append_of_step_eq_ok hstep hdot (Ne.symm hnames.1)]
      exact List.prefix_append start [name]

/-- A walk down is possible wherever its whole way is. -/
theorem walk_of_directories {start finish : Location} {names : List String} (hnames : ".." ∉ names)
    (h : now.walk start names = .ok finish)
    (hway : ∀ location, location <+: finish → fs.lookup location = some .directory) :
    fs.walk start names = .ok finish := by
  induction names generalizing start with
  | nil => exact h
  | cons name names ih =>
    have hstart := hway start (isPrefix_of_walk hnames h)
    rw [List.mem_cons, not_or] at hnames
    rw [walk_cons, bind_eq_ok_iff] at h
    obtain ⟨next, hstep, hwalk⟩ := h
    rw [step_of_directory (lookup_of_step_eq_ok hstep), ← step_of_directory hstart] at hstep
    rw [walk_cons, hstep]
    exact ih hnames.2 hwalk

end Down

end CollisionMesh.FileSystem
