import CollisionMesh.FileSystem.Text
import CollisionMesh.Proofs.Traversal

/-!
# Walks and what changes them

A walk only asks what stands at the places on its way. A file system that keeps what stood there,
except for files put at some places where no directory was, leads the same way as before: `Keeps` is
that relation, and every operation that writes is an instance of it.
-/

namespace CollisionMesh.FileSystem

set_option autoImplicit false

/-- Follows names from a place, one by one. -/
def walk (fs : FileSystem) (start : Location) (names : List String) : Except SystemFault Location :=
  names.foldlM fs.step start

theorem walk_cons (fs : FileSystem) (start : Location) (name : String) (names : List String) :
    fs.walk start (name :: names) = fs.step start name >>= fun next => fs.walk next names :=
  List.foldlM_cons

theorem walk_append (fs : FileSystem) (start : Location) (names more : List String) :
    fs.walk start (names ++ more) = fs.walk start names >>= fun next => fs.walk next more :=
  List.foldlM_append

theorem walk_concat (fs : FileSystem) (start : Location) (names : List String) (name : String) :
    fs.walk start (names ++ [name]) = fs.walk start names >>= fun next => fs.step next name := by
  rw [walk_append]
  congr 1
  funext next
  rw [walk_cons]
  cases fs.step next name <;> rfl

section Steps

variable {fs : FileSystem} {location next : Location} {name : String}

theorem step_of_directory (h : fs.lookup location = some .directory) :
    fs.step location name =
      if name = "." then .ok location
      else if name = ".." then .ok location.dropLast
      else if nameLimit < name.utf8ByteSize then .error .nameTooLong
      else .ok (location ++ [name]) := by
  rw [step, h]

theorem step_of_file {content : ByteArray} (h : fs.lookup location = some (.file content)) :
    fs.step location name = .error .notDirectory := by
  rw [step, h]

theorem step_of_lookup_eq_none (h : fs.lookup location = none) :
    fs.step location name = .error .notFound := by
  rw [step, h]

theorem lookup_of_step_eq_ok (h : fs.step location name = .ok next) :
    fs.lookup location = some .directory := by
  unfold step at h
  split at h
  · cases h
  · cases h
  · assumption

/-- A step by a proper name goes one level down. -/
theorem eq_append_of_step_eq_ok (h : fs.step location name = .ok next) (hdot : name ≠ ".")
    (hdots : name ≠ "..") : next = location ++ [name] := by
  rw [step_of_directory (lookup_of_step_eq_ok h), if_neg hdot, if_neg hdots] at h
  split at h
  · cases h
  · cases h
    rfl

end Steps

/-- A walk asks for directories only. -/
theorem walk_of_directory {fs now : FileSystem}
    (h : ∀ location, now.lookup location = some .directory → fs.lookup location = some .directory)
    {start finish : Location} {names : List String} (hwalk : now.walk start names = .ok finish) :
    fs.walk start names = .ok finish := by
  induction names generalizing start with
  | nil => exact hwalk
  | cons name names ih =>
    rw [walk_cons, bind_eq_ok_iff] at hwalk
    obtain ⟨next, hstep, hrest⟩ := hwalk
    have hstart := lookup_of_step_eq_ok hstep
    rw [step_of_directory hstart, ← step_of_directory (h start hstart)] at hstep
    rw [walk_cons, hstep]
    exact ih hrest

/-- The root is a directory whatever stands elsewhere. -/
theorem lookup_nil (fs : FileSystem) : fs.lookup [] = some .directory := rfl

theorem locate_eq_ok_iff (fs : FileSystem) (p : Path) (location : Location) (node : Node) :
    fs.locate p = .ok (location, node) ↔
      checkPath p = .ok () ∧ fs.walk (fs.origin p) (names p) = .ok location ∧
        fs.lookup location = some node ∧
        (p.endsInSlash = true → fs.lookup location = some .directory) := by
  unfold locate walk
  simp only [bind_eq_ok_iff]
  constructor
  · rintro ⟨⟨⟩, hcheck, _, hwalk, h⟩
    split at h
    · cases h
    · rename_i hlookup
      cases h
      exact ⟨hcheck, hwalk, hlookup, fun _ => hlookup⟩
    · rename_i content hlookup
      split at h
      · cases h
      · rename_i hslash
        cases h
        exact ⟨hcheck, hwalk, hlookup, fun htrue => absurd htrue hslash⟩
  · rintro ⟨hcheck, hwalk, hlookup, hslash⟩
    refine ⟨(), hcheck, location, hwalk, ?_⟩
    cases node with
    | directory => simp [hlookup]
    | file content =>
      have hfalse : ¬p.endsInSlash = true := by
        intro htrue
        rw [hslash htrue] at hlookup
        cases hlookup
      simp [hlookup, hfalse]

theorem lookup_of_locate {fs : FileSystem} {p : Path} {location : Location} {node : Node}
    (h : fs.locate p = .ok (location, node)) : fs.lookup location = some node :=
  ((locate_eq_ok_iff fs p location node).mp h).2.2.1

theorem locateParent_eq_ok_iff (fs : FileSystem) (p : Path) (location : Location)
    (name? : Option String) :
    fs.locateParent p = .ok (location, name?) ↔
      checkPath p = .ok () ∧ fs.walk (fs.origin p) (names p).dropLast = .ok location ∧
        fs.lookup location = some .directory ∧ name? = (names p).getLast? := by
  unfold locateParent walk
  simp only [bind_eq_ok_iff]
  constructor
  · rintro ⟨⟨⟩, hcheck, _, hwalk, h⟩
    split at h
    · cases h
    · cases h
    · rename_i hlookup
      cases h
      exact ⟨hcheck, hwalk, hlookup, rfl⟩
  · rintro ⟨hcheck, hwalk, hlookup, rfl⟩
    refine ⟨(), hcheck, location, hwalk, ?_⟩
    simp [hlookup]

theorem isDirectory_iff (fs : FileSystem) (p : Path) :
    fs.isDirectory p = true ↔
      checkPath p = .ok () ∧ ∃ location, fs.walk (fs.origin p) (names p) = .ok location ∧
        fs.lookup location = some .directory := by
  have hlocate : fs.isDirectory p = true ↔
      ∃ location, fs.locate p = .ok (location, .directory) := by
    unfold isDirectory
    split
    · rename_i location h
      exact ⟨fun _ => ⟨location, h⟩, fun _ => rfl⟩
    · rename_i hne
      exact ⟨fun h => (Bool.noConfusion h), fun ⟨location, h⟩ => absurd h (hne location)⟩
  simp only [hlocate, locate_eq_ok_iff]
  constructor
  · rintro ⟨location, hcheck, hwalk, hlookup, _⟩
    exact ⟨hcheck, location, hwalk, hlookup⟩
  · rintro ⟨hcheck, location, hwalk, hlookup⟩
    exact ⟨location, hcheck, hwalk, hlookup, fun _ => hlookup⟩

/-- The walk of a path by way of the directory that its last name is in. -/
theorem walk_of_locateParent {fs : FileSystem} {p : Path} {location : Location} {name : String}
    (h : fs.locateParent p = .ok (location, some name)) :
    fs.walk (fs.origin p) (names p) = fs.step location name := by
  obtain ⟨_, hwalk, _, hname⟩ := (locateParent_eq_ok_iff fs p location (some name)).mp h
  have hnames : names p = (names p).dropLast ++ [name] :=
    (List.dropLast_append_getLast? name hname.symm).symm
  rw [hnames, walk_concat, hwalk]
  rfl

/-- What a later state keeps of a file system if only files at the given
places may have been put. -/
structure Keeps (fs now : FileSystem) (places : List Location) : Prop where
  workingDirectory : now.workingDirectory = fs.workingDirectory
  lookup : ∀ location node, location ∉ places → fs.lookup location = some node →
    now.lookup location = some node
  file : ∀ location ∈ places, fs.lookup location ≠ some .directory ∧
    ∃ content, now.lookup location = some (.file content)

namespace Keeps

variable {fs mid now : FileSystem} {places more : List Location}

theorem refl (fs : FileSystem) : Keeps fs fs [] where
  workingDirectory := rfl
  lookup := fun _ _ _ h => h
  file := by simp

theorem directory (h : Keeps fs now places) {location : Location}
    (hlookup : fs.lookup location = some .directory) : now.lookup location = some .directory := by
  apply h.lookup location .directory _ hlookup
  exact fun hmem => (h.file location hmem).1 hlookup

/-- A file stays a file, though it may be another one. -/
theorem exists_file (h : Keeps fs now places) {location : Location} {content : ByteArray}
    (hlookup : fs.lookup location = some (.file content)) :
    ∃ content, now.lookup location = some (.file content) := by
  by_cases hmem : location ∈ places
  · exact (h.file location hmem).2
  · exact ⟨content, h.lookup location _ hmem hlookup⟩

theorem trans (h : Keeps fs mid places) (hmore : Keeps mid now more) :
    Keeps fs now (places ++ more) where
  workingDirectory := hmore.workingDirectory.trans h.workingDirectory
  lookup := by
    intro location node hmem hlookup
    rw [List.mem_append, not_or] at hmem
    exact hmore.lookup location node hmem.2 (h.lookup location node hmem.1 hlookup)
  file := by
    intro location hmem
    constructor
    · intro hlookup
      rcases List.mem_append.mp hmem with hmem | hmem
      · exact (h.file location hmem).1 hlookup
      · exact (hmore.file location hmem).1 (h.directory hlookup)
    · rcases List.mem_append.mp hmem with hmem | hmem
      · obtain ⟨content, hfile⟩ := (h.file location hmem).2
        exact hmore.exists_file hfile
      · exact (hmore.file location hmem).2

theorem of_insert_file {location : Location} (hlookup : fs.lookup location ≠ some .directory)
    (content : ByteArray) : Keeps fs (fs.insert location (.file content)) [location] where
  workingDirectory := rfl
  lookup := by
    intro other node hmem hother
    rw [lookup_insert_of_ne fs (by simpa using hmem)]
    exact hother
  file := by
    intro other hmem
    rw [List.mem_singleton.mp hmem]
    have hne : location ≠ [] := by
      rintro rfl
      exact hlookup fs.lookup_nil
    exact ⟨hlookup, content, lookup_insert_self fs hne _⟩

theorem of_insert_directory {location : Location} (hlookup : fs.lookup location = none) :
    Keeps fs (fs.insert location .directory) [] where
  workingDirectory := rfl
  lookup := by
    intro other node _ hother
    have hne : other ≠ location := by
      rintro rfl
      rw [hlookup] at hother
      cases hother
    rw [lookup_insert_of_ne fs hne]
    exact hother
  file := by simp

theorem origin (h : Keeps fs now places) (p : Path) : now.origin p = fs.origin p := by
  rw [FileSystem.origin, FileSystem.origin, h.workingDirectory]

/-- Only a step to nowhere may have another outcome later. -/
theorem step (h : Keeps fs now places) {location : Location} {name : String}
    (hstep : fs.step location name ≠ .error .notFound) :
    now.step location name = fs.step location name := by
  cases hlookup : fs.lookup location with
  | none => exact absurd (step_of_lookup_eq_none hlookup) hstep
  | some node =>
    cases node with
    | directory => rw [step_of_directory hlookup, step_of_directory (h.directory hlookup)]
    | file content =>
      obtain ⟨_, hfile⟩ := h.exists_file hlookup
      rw [step_of_file hlookup, step_of_file hfile]

theorem walk (h : Keeps fs now places) {start : Location} {names : List String}
    (hwalk : fs.walk start names ≠ .error .notFound) :
    now.walk start names = fs.walk start names := by
  induction names generalizing start with
  | nil => rfl
  | cons name names ih =>
    rw [walk_cons] at hwalk
    have hstep : fs.step start name ≠ .error .notFound := by
      intro hstep
      rw [hstep] at hwalk
      exact hwalk rfl
    rw [walk_cons, walk_cons, h.step hstep]
    cases hnext : fs.step start name with
    | error fault => rfl
    | ok next =>
      rw [hnext] at hwalk
      exact ih hwalk

theorem walk_of_ok (h : Keeps fs now places) {start finish : Location} {names : List String}
    (hwalk : fs.walk start names = .ok finish) : now.walk start names = .ok finish := by
  rw [h.walk (by simp [hwalk]), hwalk]

theorem isDirectory (h : Keeps fs now places) {p : Path} (hp : fs.isDirectory p = true) :
    now.isDirectory p = true := by
  obtain ⟨hcheck, location, hwalk, hlookup⟩ := (isDirectory_iff fs p).mp hp
  rw [isDirectory_iff, h.origin]
  exact ⟨hcheck, location, h.walk_of_ok hwalk, h.directory hlookup⟩

theorem locate_of_ok (h : Keeps fs now places) {p : Path} {location : Location} {node : Node}
    (hlocate : fs.locate p = .ok (location, node)) (hmem : location ∉ places) :
    now.locate p = .ok (location, node) := by
  obtain ⟨hcheck, hwalk, hlookup, hslash⟩ := (locate_eq_ok_iff fs p location node).mp hlocate
  rw [locate_eq_ok_iff, h.origin]
  exact ⟨hcheck, h.walk_of_ok hwalk, h.lookup location node hmem hlookup,
    fun htrue => h.directory (hslash htrue)⟩

/-- A path that is blocked, and not just leads to nothing, stays blocked. -/
theorem locate_of_error (h : Keeps fs now places) {p : Path} {fault : SystemFault}
    (hlocate : fs.locate p = .error fault) (hfound : fault ≠ .notFound) :
    now.locate p = .error fault := by
  unfold FileSystem.locate at hlocate ⊢
  cases hcheck : checkPath p with
  | error other =>
    rw [hcheck] at hlocate
    exact hlocate
  | ok _ =>
    rw [hcheck] at hlocate
    change (fs.walk (fs.origin p) (names p) >>= _) = _ at hlocate
    change (now.walk (now.origin p) (names p) >>= _) = _
    have hwalk : fs.walk (fs.origin p) (names p) ≠ .error .notFound := by
      intro hnot
      rw [hnot] at hlocate
      cases hlocate
      exact hfound rfl
    rw [h.origin, h.walk hwalk]
    cases hfinish : fs.walk (fs.origin p) (names p) with
    | error other =>
      rw [hfinish] at hlocate
      exact hlocate
    | ok location =>
      rw [hfinish] at hlocate
      simp only [bind, Except.bind] at hlocate ⊢
      split at hlocate
      · cases hlocate
        exact absurd rfl hfound
      · cases hlocate
      · rename_i content hlookup
        obtain ⟨_, hfile⟩ := h.exists_file hlookup
        split at hlocate
        · cases hlocate
          rw [hfile]
          simp [*]
        · cases hlocate

theorem locateParent_of_ok (h : Keeps fs now places) {p : Path} {location : Location}
    {name? : Option String} (hlocate : fs.locateParent p = .ok (location, name?)) :
    now.locateParent p = .ok (location, name?) := by
  obtain ⟨hcheck, hwalk, hlookup, hname⟩ := (locateParent_eq_ok_iff fs p location name?).mp hlocate
  rw [locateParent_eq_ok_iff, h.origin]
  exact ⟨hcheck, h.walk_of_ok hwalk, h.directory hlookup, hname⟩

end Keeps

section Placing

variable {fs : FileSystem} {p : Path} {target : Location}

theorem place_eq_ok_iff (fs : FileSystem) (p : Path) (target : Location) :
    fs.place p = .ok target ↔
      p.text.toList.contains '\x00' = false ∧ p.endsInSlash = false ∧
        fs.lookup target ≠ some .directory ∧
        ∃ location name, fs.locateParent p = .ok (location, some name) ∧ name ≠ "." ∧ name ≠ ".." ∧
          fs.step location name = .ok target := by
  unfold place
  constructor
  · intro h
    split at h
    · cases h
    rename_i hnul
    obtain ⟨⟨location, name?⟩, hlocate, h⟩ := (bind_eq_ok_iff _ _ _).mp h
    cases name? with
    | none => cases h
    | some name =>
      change (if name = "." ∨ name = ".." then _ else _) = _ at h
      split at h
      · cases h
      rename_i hdots
      obtain ⟨next, hstep, h⟩ := (bind_eq_ok_iff _ _ _).mp h
      split at h
      · cases h
      rename_i hslash
      rw [not_or] at hdots
      split at h
      · cases h
      · rename_i hdirectory
        cases h
        exact ⟨by simpa using hnul, by simpa using hslash, hdirectory, location, name, hlocate,
          hdots.1, hdots.2, hstep⟩
  · rintro ⟨hnul, hslash, hdirectory, location, name, hlocate, hdot, hdots, hstep⟩
    rw [hnul, if_neg (by simp), hlocate]
    change (if name = "." ∨ name = ".." then _ else _) = _
    rw [if_neg (by simp [hdot, hdots]), hstep]
    change (if p.endsInSlash then _ else _) = _
    rw [hslash, if_neg (by simp)]
    split
    · rename_i hlookup
      exact absurd hlookup hdirectory
    · rfl

/-- A file that was put at a path is what the path leads to, also in any
later state that keeps it. -/
theorem locate_of_place {now : FileSystem} {places : List Location} {content : ByteArray}
    (h : fs.place p = .ok target) (hkeeps : Keeps fs now places)
    (hlookup : now.lookup target = some (.file content)) :
    now.locate p = .ok (target, .file content) := by
  obtain ⟨_, hslash, _, location, name, hlocate, _, _, hstep⟩ := (place_eq_ok_iff fs p target).mp h
  have hnow := hkeeps.locateParent_of_ok hlocate
  obtain ⟨hcheck, _⟩ := (locateParent_eq_ok_iff now p location (some name)).mp hnow
  rw [locate_eq_ok_iff, walk_of_locateParent hnow, hkeeps.step (by simp [hstep])]
  exact ⟨hcheck, hstep, hlookup, by simp [hslash]⟩

theorem read_of_locate {content : ByteArray} (h : fs.locate p = .ok (target, .file content)) :
    fs.read p = .ok content := by
  rw [read, h]

theorem target_ne_nil (h : fs.place p = .ok target) : target ≠ [] := by
  rintro rfl
  exact ((place_eq_ok_iff fs p []).mp h).2.2.1 fs.lookup_nil

theorem keeps_of_place (h : fs.place p = .ok target) (content : ByteArray) :
    Keeps fs (fs.insert target (.file content)) [target] :=
  Keeps.of_insert_file ((place_eq_ok_iff fs p target).mp h).2.2.1 content

end Placing

end CollisionMesh.FileSystem
