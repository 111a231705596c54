import CollisionMesh.Proofs.BatchIndependence
import CollisionMesh.Proofs.PathOrder
import CollisionMesh.Proofs.RunEffects

/-!
# Scanning what was written

Jobs make directories and files with proper names, in directories that are there, so what was a
tree stays one. None of the files is named like a mesh. Hence a scan finds after a batch what it
found before, wherever the outputs are; the order of paths puts the findings in one order,
however the system lists them.
-/

namespace CollisionMesh

set_option autoImplicit false

open FileSystem

namespace FileSystem

variable {fs now left made : FileSystem} {p root : Path}

section Trees

theorem isName_of_mem_names {name : String} (h : name ∈ names p) (hdot : name ≠ ".")
    (hdots : name ≠ "..") :
    IsName name := by
  obtain ⟨piece, hpiece, rfl⟩ := List.mem_map.mp h
  obtain ⟨hmem, hne⟩ := List.mem_filter.mp hpiece
  refine ⟨?_, hdot, hdots, ?_⟩
  · intro hempty
    rw [String.ofList_eq_empty_iff.mp hempty] at hne
    cases hne
  · rw [String.toList_ofList]
    exact Path.not_mem_of_mem_pieces hmem

theorem isName_of_step {location : Location} {name : String}
    (hlocate : fs.locateParent p = .ok (location, some name))
    (hstep : fs.step location name = .ok (location ++ [name])) : IsName name := by
  have hmem : name ∈ names p :=
    List.mem_of_getLast? ((locateParent_eq_ok_iff fs p _ _).mp hlocate).2.2.2.symm
  rw [step_of_directory (lookup_of_step_eq_ok hstep)] at hstep
  have hdot : name ≠ "." := by
    intro hdot
    rw [if_pos hdot] at hstep
    simpa using congrArg List.length (Except.ok.inj hstep)
  have hdots : name ≠ ".." := by
    intro hdots
    rw [if_neg hdot, if_pos hdots] at hstep
    have hlength := congrArg List.length (Except.ok.inj hstep)
    rw [List.length_dropLast, List.length_append, List.length_singleton] at hlength
    omega
  exact isName_of_mem_names hmem hdot hdots

/-- A tree stays one if something with a proper name is put into one of its directories, and
not over another one. -/
theorem WellFormed.insert (hfs : fs.WellFormed) {location : Location} {name : String} {node : Node}
    (hlocation : fs.lookup location = some .directory) (hname : IsName name)
    (hnode : node = .directory ∨ fs.lookup (location ++ [name]) ≠ some .directory) :
    (fs.insert (location ++ [name]) node).WellFormed where
  unique := by
    refine List.nodup_cons.mpr ⟨?_, hfs.unique.sublist (List.filter_sublist.map _)⟩
    intro hmem
    obtain ⟨entry, hentry, heq⟩ := List.mem_map.mp hmem
    exact bne_iff_ne.mp (List.mem_filter.mp hentry).2 heq
  named := by
    intro entry hentry
    rcases List.mem_cons.mp hentry with rfl | hentry
    · intro other hother
      rcases List.mem_append.mp hother with hother | hother
      · have hmem := mem_nodes_of_lookup hlocation (List.ne_nil_of_mem hother)
        exact hfs.named _ hmem other hother
      · rwa [List.mem_singleton.mp hother]
    · exact hfs.named entry (List.mem_filter.mp hentry).1
  nested := by
    have hnested := hfs.nested'.insert hlocation hnode
    intro entry hentry
    by_cases hne : entry.1 = []
    · rw [hne]
      rfl
    rcases List.mem_cons.mp hentry with rfl | hentry
    · exact hnested _ _ (lookup_insert_self fs (by simp) node)
    · obtain ⟨hmem, hother⟩ := List.mem_filter.mp hentry
      refine hnested _ entry.2 ?_
      rw [lookup_insert_of_ne fs (bne_iff_ne.mp hother)]
      exact lookup_of_mem_nodes hfs hmem hne

theorem wellFormed_makeDirectory (hfs : fs.WellFormed) (h : fs.makeDirectory p = .ok made) :
    made.WellFormed := by
  obtain ⟨location, name, hlocate, hstep, _, rfl⟩ := makeDirectory_eq_ok h
  exact hfs.insert (lookup_of_step_eq_ok hstep) (isName_of_step hlocate hstep) (.inl rfl)

theorem Making.wellFormed {outcome : Except SystemFault Unit} (h : Making fs p outcome left)
    (hfs : fs.WellFormed) : left.WellFormed := by
  induction h with
  | empty | present | refused => exact hfs
  | made _ h => exact wellFormed_makeDirectory hfs h
  | aboveRefused _ _ _ _ ih | abovePresent _ _ _ _ _ ih | refusedBelow _ _ _ _ _ _ ih => exact ih
  | aboveMade _ _ _ _ h ih => exact wellFormed_makeDirectory ih h

theorem wellFormed_insert_of_place (hfs : fs.WellFormed) {target : Location}
    (h : fs.place p = .ok target) (content : ByteArray) :
    (fs.insert target (.file content)).WellFormed := by
  obtain ⟨_, _, hfree, location, name, hlocate, hdot, hdots, hstep⟩ :=
    (place_eq_ok_iff fs p target).mp h
  have htarget := eq_append_of_step_eq_ok hstep hdot hdots
  rw [htarget] at hfree hstep ⊢
  exact hfs.insert (lookup_of_step_eq_ok hstep) (isName_of_step hlocate hstep) (.inr hfree)

theorem wellFormed_writeFile (hfs : fs.WellFormed) (p : Path) (content : ByteArray) :
    (fs.writeFile p content).2.WellFormed := by
  have hmade := (making_makeDirectories fs p.containingDirectory).wellFormed hfs
  rw [writeFile_eq]
  generalize fs.makeDirectories p.containingDirectory = attempt at hmade ⊢
  rcases attempt with ⟨_ | _, left⟩
  · exact hmade
  · simp only
    cases hplace : left.place p with
    | error fault => exact hmade
    | ok target => exact wellFormed_insert_of_place hmade hplace content

theorem wellFormed_publish {α : Type} (hfs : fs.WellFormed) (p : Path)
    (computed : Except Failure (α × String)) :
    (fs.publish p computed).2.WellFormed := by
  cases computed with
  | error failure => exact hfs
  | ok result =>
    have hwritten := wellFormed_writeFile hfs p result.2.toUTF8
    simp only [publish]
    generalize fs.writeFile p result.2.toUTF8 = attempt at hwritten ⊢
    rcases attempt with ⟨_ | _, left⟩ <;> exact hwritten

end Trees

end FileSystem

namespace Job

theorem wellFormed_run {fs : FileSystem} (hfs : fs.WellFormed) (job : Job) :
    (job.run fs).2.WellFormed := by
  unfold run
  cases job.refusal with
  | some failure => exact hfs
  | none => exact wellFormed_publish hfs job.output _

theorem wellFormed_runJobs {fs : FileSystem} (hfs : fs.WellFormed) (jobs : List Job) :
    (runJobs fs jobs).2.WellFormed := by
  induction jobs generalizing fs with
  | nil => exact hfs
  | cons job jobs ih => exact ih (wellFormed_run hfs job)

end Job

namespace FileSystem

section Rescan

variable {fs now : FileSystem} {root input : Path} {directory : Location} {recursive : Bool}
  {inputs : List Path} {places : List Location}

theorem mem_nodes_of_file {location : Location} {content : ByteArray}
    (h : fs.lookup location = some (.file content)) : (location, .file content) ∈ fs.nodes := by
  refine mem_nodes_of_lookup h ?_
  rintro rfl
  cases h

/-- In a tree, a scan finds the files that stand at certain places, whatever is in them. -/
theorem mem_filesUnder_iff (hfs : fs.WellFormed) : input ∈ fs.filesUnder root directory recursive ↔
    ∃ location content, fs.lookup location = some (.file content) ∧
      scannedPath? root directory recursive (location, .file content) = some input := by
  rw [filesUnder_eq, List.mem_filterMap]
  constructor
  · rintro ⟨⟨location, node⟩, hmem, hscan⟩
    obtain ⟨ns, content, hne, _, hlocation, rfl⟩ := scannedPath?_eq_some hscan
    exact ⟨location, content, lookup_of_mem_nodes hfs hmem (by simp [hlocation, hne]), hscan⟩
  · rintro ⟨location, content, hlookup, hscan⟩
    exact ⟨_, mem_nodes_of_file hlookup, hscan⟩

/-- Whether no place has the name of a mesh file. -/
def Meshless (places : List Location) : Prop :=
  ∀ place ∈ places, ∀ (p : Path) (name : String), p.fileName? = some name → p.isMesh = true →
    place.getLast? ≠ some name

theorem mem_filesUnder_of_mem (hfs : fs.WellFormed) (hnow : now.WellFormed)
    (hplaces : Meshless places)
    (hlookup : ∀ location content, location ∉ places → fs.lookup location = some (.file content) →
      now.lookup location = some (.file content))
    (hmesh : input.isMesh = true) (h : input ∈ fs.filesUnder root directory recursive) :
    input ∈ now.filesUnder root directory recursive := by
  obtain ⟨location, content, hfile, hscan⟩ := (mem_filesUnder_iff hfs).mp h
  obtain ⟨init, last, _, hns, rfl, hlocation, _⟩ :=
    named_of_scannedPath? hfs (mem_nodes_of_file hfile) hscan
  refine (mem_filesUnder_iff hnow).mpr
    ⟨location, content, hlookup location content (fun hmem => ?_) hfile, hscan⟩
  have hname : (extendPath root (init ++ [last])).fileName? = some last :=
    Path.fileName?_of_pieces (pieces_extendPath_concat hns)
      (hns last (List.mem_append_right init List.mem_cons_self))
  apply hplaces location hmem _ _ hname hmesh
  have hlast : location.getLast? = (directory ++ (init ++ [last])).getLast? :=
    congrArg List.getLast? hlocation
  rw [hlast, ← List.append_assoc, List.getLast?_concat]

theorem filter_filesUnder_perm (hfs : fs.WellFormed) (hnow : now.WellFormed)
    (hchanges : Changes fs now places) (hplaces : Meshless places) :
    ((fs.filesUnder root directory recursive).filter Path.isMesh).Perm
      ((now.filesUnder root directory recursive).filter Path.isMesh) := by
  refine (List.perm_ext_iff_of_nodup ((nodup_filesUnder hfs root directory recursive).filter _)
    ((nodup_filesUnder hnow root directory recursive).filter _)).mpr fun input => ?_
  rw [List.mem_filter, List.mem_filter]
  refine and_congr_left fun hmesh => ⟨?_, ?_⟩
  · exact mem_filesUnder_of_mem hfs hnow hplaces
      (fun location content hmem => hchanges.keeps.lookup location _ hmem) hmesh
  · exact mem_filesUnder_of_mem hnow hfs hplaces hchanges.file hmesh

theorem eq_of_same_filesUnder (hfs : fs.WellFormed) (hnow : now.WellFormed) {p q : Path}
    (hp : p ∈ fs.filesUnder root directory recursive)
    (hq : q ∈ now.filesUnder root directory recursive) (h : p.same q = true) : p = q := by
  obtain ⟨entry, hentry, hscan⟩ := List.mem_filterMap.mp hp
  obtain ⟨entry', hentry', hscan'⟩ := List.mem_filterMap.mp hq
  obtain ⟨init, last, _, hns, rfl, _⟩ := named_of_scannedPath? hfs hentry hscan
  obtain ⟨init', last', _, hns', rfl, _⟩ := named_of_scannedPath? hnow hentry' hscan'
  rw [Path.eq_of_extendPath_same hns hns' h]

theorem scan_of_changes (hfs : fs.WellFormed) (hnow : now.WellFormed)
    (hchanges : Changes fs now places) (hplaces : Meshless places)
    (h : fs.scan root recursive = .ok inputs) :
    now.scan root recursive = .ok inputs := by
  unfold scan at h ⊢
  split at h
  · cases h
  · rename_i hlocate
    obtain ⟨other, hother⟩ := hchanges.keeps.exists_file (lookup_of_locate hlocate)
    rw [hchanges.keeps.locate_of_file hlocate hother]
    exact h
  · rename_i directory hlocate
    have hfree : directory ∉ places :=
      fun hmem => (hchanges.keeps.file _ hmem).1 (lookup_of_locate hlocate)
    rw [hchanges.keeps.locate_of_ok hlocate hfree, ← h]
    refine congrArg Except.ok (Path.mergeSort_eq_of_perm
      (filter_filesUnder_perm hfs hnow hchanges hplaces) fun p hp q hq hsame => ?_).symm
    exact eq_of_same_filesUnder hfs hnow (List.mem_filter.mp hp).1 (List.mem_filter.mp hq).1 hsame

end Rescan

end FileSystem

namespace Batch

/-- Nothing that a batch writes is ever found by a scan, wherever it looks. -/
theorem scan_runInOrder {fs : FileSystem} (hfs : fs.WellFormed) (options : Options)
    (inputs : List Path) (order : List Nat) {root : Path} {recursive : Bool} {found : List Path}
    (h : fs.scan root recursive = .ok found) :
    (runInOrder fs options inputs order).2.scan root recursive = .ok found := by
  obtain ⟨places, hchanges, hplaces⟩ :=
    Job.exists_changes_runJobs fs (order.filterMap fun i => (jobs options inputs)[i]?)
  refine scan_of_changes hfs (Job.wellFormed_runJobs hfs _) hchanges ?_ h
  intro place hmem p name hname hmesh hlast
  obtain ⟨job, hjob, _, _, _, _, hlocate⟩ := hplaces place hmem
  obtain ⟨input, _, rfl⟩ := mem_jobs_of_order hjob
  obtain ⟨before, hp⟩ := pieces_outputFor options input
  rw [output_jobOf] at hlocate
  obtain ⟨above, _, rfl⟩ := Path.eq_append_of_locate hp (options.isName_outputName input) hlocate
  rw [List.getLast?_concat, Option.some_inj] at hlast
  exact options.outputName_ne_of_isMesh input hname hmesh hlast

end Batch

end CollisionMesh
