import CollisionMesh.Proofs.Directories
import Mathlib.Data.List.Nodup

/-!
# Temporary files

A file is written under a name that occurs nowhere else, and then renamed or removed.
Nothing that is asked on the way has that name in it, so the temporary file is never met:
the writing of a file comes to the making of directories and one step, which puts the file
at its place or changes nothing.
-/

namespace CollisionMesh.FileSystem

set_option autoImplicit false

theorem temporaryName_injective : Function.Injective temporaryName := by
  intro m n h
  rw [temporaryName, temporaryName, String.append_right_inj, ← String.toList_inj, Nat.toList_repr,
    Nat.toList_repr] at h
  have hvalue := congrArg (fun digits => Nat.ofDigitChars 10 digits 0) h
  simpa only [Nat.ofDigitChars_toDigits (b := 10) (by decide) (by decide)] using hvalue

/-- There are more names of temporary files to choose from than names in use. -/
theorem freshName_not_mem (used : List String) : freshName used ∉ used := by
  have hfound : ∃ number, ((List.range (used.length + 1)).find? fun number =>
      !used.contains (temporaryName number)) = some number := by
    by_contra hnone
    rw [not_exists, ← Option.eq_none_iff_forall_ne_some, List.find?_eq_none] at hnone
    have hsub : (List.range (used.length + 1)).map temporaryName ⊆ used := by
      intro name hname
      obtain ⟨number, hnumber, rfl⟩ := List.mem_map.mp hname
      simpa using hnone number hnumber
    have hnodup : ((List.range (used.length + 1)).map temporaryName).Nodup :=
      List.nodup_range.map temporaryName_injective
    have hlength := hnodup.length_le_of_subset hsub
    rw [List.length_map, List.length_range] at hlength
    omega
  obtain ⟨number, hnumber⟩ := hfound
  have hfree := List.find?_some hnumber
  rw [freshName, hnumber]
  simpa using hfree

section Unmet

variable {fs now : FileSystem} {unused : String}

/-- Whether two systems differ at most at places with a name in them that the working
directory does not have. -/
structure SameBut (unused : String) (fs now : FileSystem) : Prop where
  workingDirectory : now.workingDirectory = fs.workingDirectory
  origin : unused ∉ fs.workingDirectory
  lookup : ∀ location, unused ∉ location → now.lookup location = fs.lookup location

theorem not_mem_of_step {location next : Location} {name : String} (hlocation : unused ∉ location)
    (hname : name ≠ unused) (h : fs.step location name = .ok next) : unused ∉ next := by
  rw [step_of_directory (lookup_of_step_eq_ok h)] at h
  split at h
  · cases h
    exact hlocation
  · split at h
    · cases h
      exact fun hmem => hlocation (List.dropLast_subset _ hmem)
    · split at h
      · cases h
      · cases h
        rw [List.mem_append, List.mem_singleton, not_or]
        exact ⟨hlocation, Ne.symm hname⟩

theorem not_mem_of_walk {start finish : Location} {names : List String} (hstart : unused ∉ start)
    (hnames : unused ∉ names) (h : fs.walk start names = .ok finish) : unused ∉ finish := by
  induction names generalizing start with
  | nil =>
    cases h
    exact hstart
  | cons name names ih =>
    rw [List.mem_cons, not_or] at hnames
    rw [walk_cons, bind_eq_ok_iff] at h
    obtain ⟨next, hstep, hwalk⟩ := h
    exact ih (not_mem_of_step hstart (Ne.symm hnames.1) hstep) hnames.2 hwalk

namespace SameBut

theorem step (h : SameBut unused fs now) {location : Location} (hlocation : unused ∉ location)
    (name : String) : now.step location name = fs.step location name := by
  rw [FileSystem.step, FileSystem.step, h.lookup location hlocation]

theorem walk (h : SameBut unused fs now) {start : Location} {names : List String}
    (hstart : unused ∉ start) (hnames : unused ∉ names) :
    now.walk start names = fs.walk start names := by
  induction names generalizing start with
  | nil => rfl
  | cons name names ih =>
    rw [List.mem_cons, not_or] at hnames
    rw [walk_cons, walk_cons, h.step hstart]
    cases hstep : fs.step start name with
    | error fault => rfl
    | ok next => exact ih (not_mem_of_step hstart (Ne.symm hnames.1) hstep) hnames.2

theorem not_mem_origin (h : SameBut unused fs now) (p : Path) : unused ∉ fs.origin p := by
  rw [FileSystem.origin]
  split
  · exact List.not_mem_nil
  · exact h.origin

theorem not_mem_of_locateParent (h : SameBut unused fs now) {p : Path} (hp : unused ∉ names p)
    {location : Location} {name? : Option String}
    (hlocate : fs.locateParent p = .ok (location, name?)) :
    unused ∉ location := by
  obtain ⟨_, hwalk, _⟩ := (locateParent_eq_ok_iff fs p location name?).mp hlocate
  exact not_mem_of_walk (h.not_mem_origin p) (fun hmem => hp (List.dropLast_subset _ hmem)) hwalk

theorem locateParent (h : SameBut unused fs now) {p : Path} (hp : unused ∉ names p) :
    now.locateParent p = fs.locateParent p := by
  have horigin : now.origin p = fs.origin p := by
    rw [FileSystem.origin, FileSystem.origin, h.workingDirectory]
  have hinit : unused ∉ (names p).dropLast := fun hmem => hp (List.dropLast_subset _ hmem)
  have hwalk := h.walk (h.not_mem_origin p) hinit
  unfold FileSystem.walk at hwalk
  unfold FileSystem.locateParent
  rw [horigin, hwalk]
  cases checkPath p with
  | error fault => rfl
  | ok _ =>
    cases hfinish : (names p).dropLast.foldlM fs.step (fs.origin p) with
    | error fault => rfl
    | ok location =>
      have hlookup := h.lookup location (not_mem_of_walk (h.not_mem_origin p) hinit hfinish)
      simp only [bind, Except.bind, hlookup]

/-- Where a file goes is the same, unless its path has the unused name. -/
theorem place (h : SameBut unused fs now) {p : Path} (hp : unused ∉ names p) :
    now.place p = fs.place p := by
  unfold FileSystem.place
  rw [h.locateParent hp]
  split
  · rfl
  · cases hlocate : fs.locateParent p with
    | error fault => rfl
    | ok found =>
      obtain ⟨location, name?⟩ := found
      cases name? with
      | none => rfl
      | some name =>
        have hlocation := h.not_mem_of_locateParent hp hlocate
        have hname : name ≠ unused := by
          rintro rfl
          exact hp (List.mem_of_getLast? ((locateParent_eq_ok_iff fs p _ _).mp hlocate).2.2.2.symm)
        simp only [bind, Except.bind]
        split
        · rfl
        · rw [h.step hlocation]
          cases hstep : fs.step location name with
          | error fault => rfl
          | ok target => simp only [h.lookup target (not_mem_of_step hlocation hname hstep)]

end SameBut

end Unmet

section Traces

variable {fs : FileSystem} {location : Location}

theorem sameBut_insert {unused : String} (hunused : unused ∉ fs.namesInUse)
    (hmem : unused ∈ location) (node : Node) : SameBut unused fs (fs.insert location node) where
  workingDirectory := rfl
  origin := fun hin => hunused (List.mem_append_left _ hin)
  lookup := by
    intro other hother
    apply lookup_insert_of_ne
    rintro rfl
    exact hother hmem

/-- A place with a name in it that occurs nowhere is the place of nothing. -/
theorem not_mem_nodes {unused : String} (hunused : unused ∉ fs.namesInUse)
    (hmem : unused ∈ location) :
    ∀ entry ∈ fs.nodes, entry.1 ≠ location := by
  rintro entry hentry rfl
  exact hunused (List.mem_append_right _ (List.mem_flatMap.mpr ⟨entry, hentry, hmem⟩))

/-- What was put where nothing stood leaves no trace when it is removed. -/
theorem remove_insert (h : ∀ entry ∈ fs.nodes, entry.1 ≠ location) (node : Node) :
    (fs.insert location node).remove location = fs := by
  have hfilter : (fs.nodes.filter fun entry => entry.1 != location) = fs.nodes :=
    List.filter_eq_self.mpr fun entry hentry => bne_iff_ne.mpr (h entry hentry)
  have hnodes : (((location, node) :: fs.nodes).filter fun entry => entry.1 != location) =
      fs.nodes := by
    rw [List.filter_cons_of_neg (by simp), hfilter]
  rw [remove, insert]
  simp only [hfilter, hnodes]

end Traces

section Writing

variable {fs left : FileSystem} {p : Path}

theorem containingDirectory_text_ne_empty (p : Path) : p.containingDirectory.text ≠ "" := by
  unfold Path.containingDirectory
  split
  · split
    · decide
    · rename_i hne
      exact fun h => hne (String.isEmpty_iff.mpr h)
  · decide

/-- In a directory that is there a temporary file comes and goes unnoticed. -/
theorem exists_putTemporary (h : left.isDirectory p.containingDirectory = true)
    (content : ByteArray) :
    ∃ source filled, left.putTemporary p content = .ok (source, filled) ∧
      filled.remove source = left ∧
      filled.rename source p = (left.place p).map fun target =>
        left.insert target (.file content) := by
  obtain ⟨hcheck, directory, hwalk, hlookup⟩ := (isDirectory_iff _ _).mp h
  have hlocate : left.locate p.containingDirectory = .ok (directory, .directory) :=
    (locate_eq_ok_iff _ _ _ _).mpr ⟨hcheck, hwalk, hlookup, fun _ => hlookup⟩
  have hfresh := freshName_not_mem (names p ++ left.namesInUse)
  generalize hunused : freshName (names p ++ left.namesInUse) = unused at hfresh
  rw [List.mem_append, not_or] at hfresh
  have hmem : unused ∈ directory ++ [unused] := by simp
  have hremove := remove_insert (not_mem_nodes hfresh.2 hmem) (.file content)
  refine ⟨directory ++ [unused], left.insert (directory ++ [unused]) (.file content), ?_,
    hremove, ?_⟩
  · rw [putTemporary, hlocate, ← hunused]
  · rw [rename, (sameBut_insert hfresh.2 hmem (.file content)).place hfresh.1]
    cases left.place p with
    | error fault => rfl
    | ok target =>
      have hsource := lookup_insert_self left (List.ne_nil_of_mem hmem) (.file content)
      simp only [bind, Except.bind, hsource, hremove]
      rfl

/-- The writing of a file is the making of its directory, and then one step or none. -/
theorem writeFile_eq (fs : FileSystem) (p : Path) (content : ByteArray) :
    fs.writeFile p content =
      match fs.makeDirectories p.containingDirectory with
      | (.error fault, left) => (.error (.ofSystem p.containingDirectory fault), left)
      | (.ok (), left) =>
        match left.place p with
        | .error fault => (.error (.ofSystem p fault), left)
        | .ok target => (.ok (), left.insert target (.file content)) := by
  unfold writeFile
  rcases hmade : fs.makeDirectories p.containingDirectory with ⟨fault | _, left⟩
  · rfl
  · have hdirectory := isDirectory_of_makeDirectories hmade (containingDirectory_text_ne_empty p)
    obtain ⟨source, filled, hput, hremove, hrename⟩ := exists_putTemporary hdirectory content
    simp only [hput, hrename, hremove]
    cases left.place p <;> rfl

theorem writeFile_of_makeDirectories {made : FileSystem}
    (h : fs.makeDirectories p.containingDirectory = (.ok (), made)) (content : ByteArray) :
    fs.writeFile p content =
      match made.place p with
      | .error fault => (.error (.ofSystem p fault), made)
      | .ok target => (.ok (), made.insert target (.file content)) := by
  rw [writeFile_eq, h]

theorem writeFile_of_makeDirectories_error {fault : SystemFault}
    (h : fs.makeDirectories p.containingDirectory = (.error fault, left)) (content : ByteArray) :
    fs.writeFile p content = (.error (.ofSystem p.containingDirectory fault), left) := by
  rw [writeFile_eq, h]

end Writing

end CollisionMesh.FileSystem
