import CollisionMesh.Proofs.BatchOrders
import CollisionMesh.Proofs.BatchRuns
import CollisionMesh.Proofs.Scanning

/-!
# Batches of scanned inputs

The inputs of a scan may be converted in any order. Their outputs stand apart from all of them and
from each other, unless they are refused for being the same, so each input has the outcome that it
has alone, and the other files stay. The one thing that an earlier input can change is how the
making of the output directory fails, and that only if its path leads up by two dots.
-/

namespace CollisionMesh

set_option autoImplicit false

open FileSystem

namespace Batch

section Refusals

variable {options : Options} {inputs : List Path} {input : Path}

/-- Whether another input would be written to the output of an input. -/
def Shared (options : Options) (inputs : List Path) (input : Path) : Prop :=
  ∃ other ∈ inputs, other ≠ input ∧ (options.outputFor other).same (options.outputFor input) = true

theorem refusal?_of_shared (hmem : input ∈ inputs) (h : Shared options inputs input) :
    ∃ others, refusal? options inputs input =
      some (.invalidOptions (.outputShared input others (options.outputFor input))) := by
  obtain ⟨other, hother, hne, hsame⟩ := h
  have howner : other ∈ owners options inputs (options.outputFor input) :=
    List.mem_filter.mpr ⟨hother, hsame⟩
  have hself : input ∈ owners options inputs (options.outputFor input) :=
    List.mem_filter.mpr ⟨hmem, Path.same_self _⟩
  have hlength : 1 < (owners options inputs (options.outputFor input)).length := by
    by_contra hshort
    generalize owners options inputs (options.outputFor input) = found at howner hself hshort
    cases found with
    | nil => cases hself
    | cons first rest =>
      have hrest : rest = [] := by
        rw [List.length_cons] at hshort
        exact List.length_eq_zero_iff.mp (by omega)
      rw [hrest, List.mem_singleton] at howner hself
      exact hne (howner.trans hself.symm)
  exact ⟨_, by rw [refusal?, if_pos hlength]⟩

theorem refusal?_of_not_shared (hnodup : inputs.Nodup) (h : ¬Shared options inputs input) :
    refusal? options inputs input = none := by
  have hself : ∀ other ∈ owners options inputs (options.outputFor input), other = input := by
    intro other hother
    obtain ⟨hother, hsame⟩ := List.mem_filter.mp hother
    by_contra hne
    exact h ⟨other, hother, hne, hsame⟩
  have howners : (owners options inputs (options.outputFor input)).Nodup := hnodup.filter _
  have hlength : ¬1 < (owners options inputs (options.outputFor input)).length := by
    intro hlong
    generalize owners options inputs (options.outputFor input) = found at hself howners hlong
    cases found with
    | nil => simp at hlong
    | cons first rest =>
      cases rest with
      | nil => simp at hlong
      | cons second rest =>
        have hfirst := hself first (by simp)
        have hsecond := hself second (by simp)
        rw [hfirst, hsecond] at howners
        simp at howners
  rw [refusal?, if_neg hlength]

end Refusals

/-- A batch whose outputs go to directories that are there in `base`, which its
making of them leaves. -/
structure Ready (fs base : FileSystem) (options : Options) (inputs : List Path) : Prop where
  grows : Grows fs base
  directory : ∀ input ∈ inputs, ∀ conversion, fs.convert options input = .ok conversion →
    fs.makeDirectories (options.outputFor input).containingDirectory = (.ok (), base)
  same : ∀ a ∈ inputs, ∀ b ∈ inputs, ∀ above,
    base.enter (base.origin (options.outputFor a).containingDirectory)
      (names (options.outputFor a).containingDirectory) = .ok above →
    base.enter (base.origin (options.outputFor b).containingDirectory)
      (names (options.outputFor b).containingDirectory) = .ok above →
    options.outputName a = options.outputName b → options.outputFor a = options.outputFor b

section Outputs

variable {fs base : FileSystem} {options : Options} {inputs : List Path}

theorem pieces_outputFor (options : Options) (input : Path) :
    ∃ before, (options.outputFor input).pieces = before ++ [(options.outputName input).toList] :=
  ⟨_, Path.pieces_join _ (options.isName_outputName input)⟩

/-- A converted input was found, so its own directory is there. -/
theorem isDirectory_of_convert (hinputs : Inputs fs inputs) {input : Path} (hmem : input ∈ inputs)
    {conversion : Conversion} (h : fs.convert options input = .ok conversion) :
    fs.isDirectory input.containingDirectory = true := by
  obtain ⟨before, name, hp, hname⟩ := hinputs.leaf input hmem
  obtain ⟨_, _, h⟩ := (bind_eq_ok_iff _ _ _).mp h
  obtain ⟨mesh, hload, _⟩ := (bind_eq_ok_iff _ _ _).mp h
  obtain ⟨content, hread, _⟩ := (bind_eq_ok_iff _ _ _).mp hload
  unfold FileSystem.read at hread
  split at hread
  · rename_i hlocate
    exact Path.isDirectory_containingDirectory hp hname hlocate
  · cases hread
  · cases hread

/-- Outputs beside the inputs go to directories that are there. -/
theorem ready_beside (hinputs : Inputs fs inputs) (h : options.outputDirectory = none) :
    Ready fs fs options inputs := by
  have hcontaining : ∀ input ∈ inputs,
      (options.outputFor input).containingDirectory = input.containingDirectory := by
    intro input hmem
    obtain ⟨before, name, hp, hname⟩ := hinputs.leaf input hmem
    rw [options.outputFor_eq_join, h]
    exact Path.containingDirectory_join_parent hp hname (options.isName_outputName input)
  refine ⟨Grows.refl fs, ?_, ?_⟩
  · intro input hmem conversion hconversion
    rw [hcontaining input hmem]
    exact makeDirectories_of_isDirectory (isDirectory_of_convert hinputs hmem hconversion)
  · intro a ha b hb above henter henter' hname
    rw [hcontaining a ha] at henter
    rw [hcontaining b hb] at henter'
    rw [options.outputFor_eq_join, options.outputFor_eq_join, h, hname,
      hinputs.parent a ha b hb above henter henter']

/-- Outputs in one directory have that directory, which is told from its path. -/
theorem exists_containingDirectory {d : Path} (h : options.outputDirectory = some d) :
    ∃ directory : Path, directory.Orderly ∧ (".." ∈ names directory → ".." ∈ names d) ∧
      ∀ input, (options.outputFor input).containingDirectory = directory := by
  have hname : IsName "a" := by decide
  refine ⟨(d.join ⟨"a"⟩).containingDirectory, ?_, Path.mem_names_of_join hname, fun input => ?_⟩
  · exact Path.orderly_containingDirectory (Path.pieces_join d hname) hname
  · rw [options.outputFor_eq_join, h]
    exact (Path.containingDirectory_join d (options.isName_outputName input)).trans
      (Path.containingDirectory_join d hname).symm

theorem ready_in {d directory : Path} (h : options.outputDirectory = some d)
    (hdirectory : ∀ input, (options.outputFor input).containingDirectory = directory)
    (hmade : fs.makeDirectories directory = (.ok (), base)) : Ready fs base options inputs := by
  refine ⟨grows_makeDirectories hmade, fun input _ _ _ => by rw [hdirectory, hmade], ?_⟩
  intro a _ b _ above _ _ hname
  rw [options.outputFor_eq_join, options.outputFor_eq_join, h, hname]
  rfl

end Outputs

section Ordered

variable {fs base : FileSystem} {options : Options} {inputs : List Path}

/-- What the inputs of a batch put where. -/
def writes (fs base : FileSystem) (options : Options) (inputs : List Path) :
    List (Location × ByteArray) :=
  inputs.filterMap fun input => (jobOf options inputs input).write? fs base

theorem mem_writes {write : Location × ByteArray} (h : write ∈ writes fs base options inputs) :
    ∃ input ∈ inputs, (jobOf options inputs input).write? fs base = some write :=
  List.mem_filterMap.mp h

theorem write?_jobOf_eq_some {input : Path} {write : Location × ByteArray}
    (h : (jobOf options inputs input).write? fs base = some write) :
    refusal? options inputs input = none ∧ ∃ conversion, fs.convert options input = .ok conversion ∧
      base.place (options.outputFor input) = .ok write.1 ∧ conversion.source.toUTF8 = write.2 := by
  simpa only [refusal_jobOf, options_jobOf, input_jobOf, output_jobOf] using
    Job.write?_eq_some_iff.mp h

/-- The place of an output ends in its name, in the directory that its path names. -/
theorem eq_append_of_write? {input : Path} {write : Location × ByteArray}
    (h : (jobOf options inputs input).write? fs base = some write) :
    ∃ above, base.enter (base.origin (options.outputFor input).containingDirectory)
      (names (options.outputFor input).containingDirectory) = .ok above ∧
      write.1 = above ++ [options.outputName input] := by
  obtain ⟨_, _, _, hplace, _⟩ := write?_jobOf_eq_some h
  obtain ⟨_, hp⟩ := pieces_outputFor options input
  exact Path.eq_append_of_place hp (options.isName_outputName input) hplace

/-- A job that writes shares its output with no other. -/
theorem eq_of_outputFor_eq {a b : Path} (ha : a ∈ inputs) (hb : b ∈ inputs)
    {write : Location × ByteArray} (h : (jobOf options inputs a).write? fs base = some write)
    (hsame : options.outputFor a = options.outputFor b) : a = b := by
  by_contra hne
  have hshared : Shared options inputs a :=
    ⟨b, hb, Ne.symm hne, by rw [hsame]; exact Path.same_self _⟩
  obtain ⟨_, hrefused⟩ := refusal?_of_shared ha hshared
  rw [(write?_jobOf_eq_some h).1] at hrefused
  cases hrefused

theorem nodup_writes (hinputs : Inputs fs inputs) (hready : Ready fs base options inputs) :
    ((writes fs base options inputs).map Prod.fst).Nodup := by
  rw [writes, List.nodup_iff_pairwise_ne, List.pairwise_map, List.pairwise_filterMap]
  refine List.Pairwise.imp_of_mem ?_ (List.nodup_iff_pairwise_ne.mp hinputs.nodup)
  intro a b ha hb hne write hwrite write' hwrite' heq
  obtain ⟨above, henter, htarget⟩ := eq_append_of_write? hwrite
  obtain ⟨above', henter', htarget'⟩ := eq_append_of_write? hwrite'
  obtain ⟨rfl, hname⟩ := List.append_singleton_inj.mp ((htarget.symm.trans heq).trans htarget')
  have hsame := hready.same a ha b hb above henter henter' hname
  exact hne (eq_of_outputFor_eq ha hb hwrite hsame)

theorem consistent_of_subset (hinputs : Inputs fs inputs) (hready : Ready fs base options inputs)
    {done : List (Location × ByteArray)} (h : done ⊆ writes fs base options inputs) :
    Consistent done :=
  fun _ hwrite _ hother =>
    consistent_of_nodup (nodup_writes hinputs hready) _ (h hwrite) _ (h hother)

theorem settled (hinputs : Inputs fs inputs) (hready : Ready fs base options inputs) {input : Path}
    (hmem : input ∈ inputs) :
    (jobOf options inputs input).Settled fs base
      ((writes fs base options inputs).map Prod.fst) where
  found := by
    rw [input_jobOf]
    exact hinputs.found input hmem
  apart := by
    intro location node hlocate hwritten
    rw [input_jobOf] at hlocate
    obtain ⟨write, hwrite, rfl⟩ := List.mem_map.mp hwritten
    obtain ⟨other, _, hother⟩ := mem_writes hwrite
    obtain ⟨before, name, hp, hname⟩ := hinputs.leaf input hmem
    obtain ⟨above, _, hlocation⟩ := Path.eq_append_of_locate hp hname hlocate
    obtain ⟨above', _, htarget⟩ := eq_append_of_write? hother
    have hnames := (List.append_singleton_inj.mp (htarget.symm.trans hlocation)).2
    exact options.outputName_ne_of_isMesh other (Path.fileName?_of_pieces hp hname)
      (hinputs.mesh input hmem) hnames
  leaf := by
    obtain ⟨before, hp⟩ := pieces_outputFor options input
    rw [output_jobOf]
    exact ⟨before, _, hp, options.isName_outputName input⟩
  directory := by
    intro conversion _ hconversion
    rw [options_jobOf, input_jobOf] at hconversion
    rw [output_jobOf]
    exact hready.directory input hmem conversion hconversion

/-- What the jobs in an order write is what the inputs write, rearranged. -/
theorem perm_writes {order : List Nat} (horder : order.Perm (List.range inputs.length)) :
    ((order.filterMap fun i => (jobs options inputs)[i]?).filterMap fun job =>
      job.write? fs base).Perm (writes fs base options inputs) := by
  have hlength : (jobs options inputs).length = inputs.length := List.length_map _
  have hperm := (perm_filterMap_getElem? (hlength ▸ horder)).filterMap fun job => job.write? fs base
  rwa [jobs_eq_map, List.filterMap_map] at hperm

theorem mem_jobs_of_order {order : List Nat} {job : Job}
    (h : job ∈ order.filterMap fun i => (jobs options inputs)[i]?) :
    ∃ input ∈ inputs, jobOf options inputs input = job := by
  obtain ⟨_, _, hget⟩ := List.mem_filterMap.mp h
  exact List.mem_map.mp (jobs_eq_map options inputs ▸ List.mem_of_getElem? hget)

/-- After any of their own files were written, each entry has its own outcome and what
is written is written. -/
theorem runInOrder_of_reached {order : List Nat} {now : FileSystem}
    {before : List (Location × ByteArray)} (hinputs : Inputs fs inputs)
    (hready : Ready fs base options inputs) (hreached : Job.Reached fs base before now)
    (hbefore : before ⊆ writes fs base options inputs)
    (horder : order.Perm (List.range inputs.length)) :
    (runInOrder now options inputs order).1.map BatchEntry.input = inputs ∧
      (∀ entry ∈ (runInOrder now options inputs order).1,
        entry.outcome = (jobOf options inputs entry.input).alone fs) ∧
      ∃ done : List (Location × ByteArray), done.Perm (writes fs base options inputs) ∧
        Job.Reached fs base (before ++ done) (runInOrder now options inputs order).2 := by
  have hperm : ((order.filterMap fun i => (jobs options inputs)[i]?).filterMap fun job =>
      job.write? fs base).Perm (writes fs base options inputs) := perm_writes horder
  obtain ⟨houtcomes, hfinal⟩ := Job.runJobs_of_reached hready.grows hreached
    (fun job hjob => by
      obtain ⟨input, hmem, rfl⟩ := mem_jobs_of_order hjob
      exact settled hinputs hready hmem)
    (fun write hwrite => List.mem_map_of_mem
      ((List.mem_append.mp hwrite).elim (fun hin => hbefore hin) hperm.mem_iff.mp))
  have houts : List.Forall₂ (fun job outcome => outcome = job.alone fs)
      (order.filterMap fun i => (jobs options inputs)[i]?)
      (runJobs now (order.filterMap fun i => (jobs options inputs)[i]?)).1 := by
    rw [houtcomes, List.forall₂_map_right_iff, List.forall₂_same]
    exact fun _ _ => rfl
  obtain ⟨hinput, hentry⟩ := entries_of_outcomes horder houts
  exact ⟨hinput, hentry, _, hperm, hfinal⟩

theorem runInOrder_of_ready {order : List Nat} (hinputs : Inputs fs inputs)
    (hready : Ready fs base options inputs) (horder : order.Perm (List.range inputs.length)) :
    (runInOrder fs options inputs order).1.map BatchEntry.input = inputs ∧
      (∀ entry ∈ (runInOrder fs options inputs order).1,
        entry.outcome = (jobOf options inputs entry.input).alone fs) ∧
      ∃ done : List (Location × ByteArray), done.Perm (writes fs base options inputs) ∧
        Job.Reached fs base done (runInOrder fs options inputs order).2 :=
  runInOrder_of_reached hinputs hready ⟨.inr ⟨rfl, rfl⟩, by simp⟩ (List.nil_subset _) horder

/-- Where the one directory cannot be made, each entry fails by itself or for
that, and no file changes. -/
theorem runInOrder_of_refused {order : List Nat} {directory : Path} {fault : SystemFault}
    {left : FileSystem} (hfs : fs.Nested) (hinputs : Inputs fs inputs)
    (hdirectory : directory.Orderly)
    (hall : ∀ input, (options.outputFor input).containingDirectory = directory)
    (h : fs.makeDirectories directory = (.error fault, left))
    (horder : order.Perm (List.range inputs.length)) :
    (runInOrder fs options inputs order).1.map BatchEntry.input = inputs ∧
      (∀ entry ∈ (runInOrder fs options inputs order).1,
        (jobOf options inputs entry.input).Agrees fs
          ((runInOrder fs options inputs order).1.map BatchEntry.outcome) entry.outcome) ∧
      Grows fs (runInOrder fs options inputs order).2 := by
  have hjobs : ∀ job ∈ order.filterMap fun i => (jobs options inputs)[i]?,
      fs.locate job.input ≠ .error .notFound ∧ job.output.containingDirectory = directory := by
    intro job hjob
    obtain ⟨input, hmem, rfl⟩ := mem_jobs_of_order hjob
    rw [input_jobOf, output_jobOf]
    exact ⟨hinputs.found input hmem, hall input⟩
  have hstart : fs = fs ∨
      (fs = left ∧ .error (.ofSystem directory fault) ∈ ([] : List (Except Failure Artifact))) :=
    .inl rfl
  obtain ⟨houts, hfinal⟩ := Job.runJobs_of_refused hfs hdirectory h hjobs hstart
  obtain ⟨hinput, hentry⟩ := entries_of_outcomes horder houts
  refine ⟨hinput, fun entry hmem => (hentry entry hmem).mono fun outcome hseen => ?_, ?_⟩
  · obtain ⟨other, hother, rfl⟩ := exists_entry_of_mem horder hseen
    exact List.mem_map_of_mem hother
  change Grows fs (runJobs fs _).2
  rcases hfinal with hfinal | hfinal
  · rw [hfinal]
    exact Grows.refl fs
  · rw [hfinal]
    exact grows_makeDirectories h

end Ordered

/-- An entry that finds what another one made in vain of a path with two dots, and fails
otherwise than alone. -/
structure RefusedAgain (fs : FileSystem) (options : Options) (entries : List BatchEntry)
    (entry : BatchEntry) : Prop where
  up : ∃ d, options.outputDirectory = some d ∧ ".." ∈ names d
  alone : (fs.convertTo options entry.input (options.outputFor entry.input)).1 =
    .error (.ofSystem (options.outputFor entry.input).containingDirectory .alreadyExists)
  first : ∃ other ∈ entries, other.outcome =
    .error (.ofSystem (options.outputFor entry.input).containingDirectory .alreadyExists)
  again : entry.outcome =
    .error (.ofSystem (options.outputFor entry.input).containingDirectory .notDirectory)

/-- What a batch makes of the system `fs`: each entry for itself, and nothing of the other files. -/
structure Independent (fs : FileSystem) (options : Options) (inputs : List Path)
    (entries : List BatchEntry) (final : FileSystem) : Prop where
  complete : entries.map BatchEntry.input = inputs
  shared : ∀ entry ∈ entries, Shared options inputs entry.input → ∃ others, entry.outcome =
    .error (.invalidOptions (.outputShared entry.input others (options.outputFor entry.input)))
  alone : ∀ entry ∈ entries, ¬Shared options inputs entry.input →
    entry.outcome = (fs.convertTo options entry.input (options.outputFor entry.input)).1 ∨
      RefusedAgain fs options entries entry
  written : ∀ entry ∈ entries, entry.outcome.isOk = true →
    ∃ conversion, fs.convert options entry.input = .ok conversion ∧
      final.read (options.outputFor entry.input) = .ok conversion.source.toUTF8
  untouched : ∀ entry ∈ entries, entry.outcome.isOk = false →
    Untouched fs final (options.outputFor entry.input)
  kept : ∀ input ∈ inputs, final.read input = fs.read input
  others : ∀ location, (∀ entry ∈ entries, entry.outcome.isOk = true →
      ∀ content, final.locate (options.outputFor entry.input) ≠ .ok (location, .file content)) →
    ∀ content, final.lookup location = some (.file content) ↔
      fs.lookup location = some (.file content)

section Independence

variable {fs base final : FileSystem} {options : Options} {inputs : List Path} {input : Path}

theorem alone_of_shared (hmem : input ∈ inputs) (h : Shared options inputs input) :
    ∃ others, (jobOf options inputs input).alone fs =
      .error (.invalidOptions (.outputShared input others (options.outputFor input))) := by
  obtain ⟨others, hrefusal⟩ := refusal?_of_shared hmem h
  exact ⟨others, by rw [Job.alone, Job.run, refusal_jobOf, hrefusal]⟩

theorem alone_of_not_shared (hinputs : Inputs fs inputs) (h : ¬Shared options inputs input) :
    (jobOf options inputs input).alone fs =
      (fs.convertTo options input (options.outputFor input)).1 := by
  rw [Job.alone, Job.run, refusal_jobOf, refusal?_of_not_shared hinputs.nodup h, options_jobOf,
    input_jobOf, output_jobOf]

/-- Where an output that is not written would go is no place of a written one. -/
theorem not_mem_writes (hready : Ready fs base options inputs) (hmem : input ∈ inputs)
    (hnone : (jobOf options inputs input).write? fs base = none) {above : Location}
    (henter : base.enter (base.origin (options.outputFor input).containingDirectory)
      (names (options.outputFor input).containingDirectory) = .ok above) :
    above ++ [options.outputName input] ∉ (writes fs base options inputs).map Prod.fst := by
  intro hwritten
  obtain ⟨write, hwrite, htarget⟩ := List.mem_map.mp hwritten
  obtain ⟨other, hother, hjob⟩ := mem_writes hwrite
  obtain ⟨above', henter', htarget'⟩ := eq_append_of_write? hjob
  obtain ⟨rfl, hname⟩ := List.append_singleton_inj.mp (htarget'.symm.trans htarget)
  have hsame := hready.same other hother input hmem above' henter' henter hname
  rw [eq_of_outputFor_eq hother hmem hjob hsame, hnone] at hjob
  cases hjob

section Done

variable {done : List (Location × ByteArray)}

theorem leaves_of_ready (hinputs : Inputs fs inputs) (hready : Ready fs base options inputs)
    (hdone : done.Perm (writes fs base options inputs))
    (hreached : Job.Reached fs base done final) :
    Leaves fs final done :=
  hreached.leaves hready.grows (consistent_of_subset hinputs hready hdone.subset)

theorem locate_of_write? (hinputs : Inputs fs inputs) (hready : Ready fs base options inputs)
    (hdone : done.Perm (writes fs base options inputs)) (hreached : Job.Reached fs base done final)
    (hmem : input ∈ inputs) {write : Location × ByteArray}
    (hwrite : (jobOf options inputs input).write? fs base = some write) :
    final.locate (options.outputFor input) = .ok (write.1, .file write.2) := by
  obtain ⟨_, _, _, hplace, _⟩ := write?_jobOf_eq_some hwrite
  have hin : write ∈ done := hdone.mem_iff.mpr (List.mem_filterMap.mpr ⟨input, hmem, hwrite⟩)
  exact hreached.locate hready.grows (consistent_of_subset hinputs hready hdone.subset) hin hplace

theorem read_input_of_ready (hinputs : Inputs fs inputs) (hready : Ready fs base options inputs)
    (hdone : done.Perm (writes fs base options inputs)) (hreached : Job.Reached fs base done final)
    (hmem : input ∈ inputs) : final.read input = fs.read input := by
  have hjob := settled hinputs hready hmem
  apply read_of_keeps (leaves_of_ready hinputs hready hdone hreached).keeps
    (hinputs.found input hmem)
  intro location node hlocate
  rw [(hdone.map Prod.fst).mem_iff]
  exact hjob.apart location node hlocate

/-- The output of an entry that fails is found where it was, if anywhere, and as it was. -/
theorem untouched_of_ready (hinputs : Inputs fs inputs) (hready : Ready fs base options inputs)
    (hdone : done.Perm (writes fs base options inputs)) (hreached : Job.Reached fs base done final)
    (hmem : input ∈ inputs) (hnone : (jobOf options inputs input).write? fs base = none) :
    Untouched fs final (options.outputFor input) := by
  obtain ⟨_, hp⟩ := pieces_outputFor options input
  have hleaves := leaves_of_ready hinputs hready hdone hreached
  have hkeys : ∀ above, base.enter (base.origin (options.outputFor input).containingDirectory)
      (names (options.outputFor input).containingDirectory) = .ok above →
      above ++ [options.outputName input] ∉ done.map Prod.fst := by
    intro above henter
    rw [(hdone.map Prod.fst).mem_iff]
    exact not_mem_writes hready hmem hnone henter
  apply hleaves.untouched
  · intro location node hlocate
    obtain ⟨above, henter, rfl⟩ :=
      Path.eq_append_of_locate hp (options.isName_outputName input) hlocate
    apply hkeys above
    rw [hready.grows.keeps.origin]
    exact enter_of_directory (fun _ => hready.grows.keeps.directory) henter
  · intro location node hlocate
    obtain ⟨above, henter, rfl⟩ :=
      Path.eq_append_of_locate hp (options.isName_outputName input) hlocate
    apply hkeys above
    rw [hleaves.keeps.origin] at henter
    rw [hready.grows.keeps.origin]
    exact enter_of_directory (fun _ => hreached.directory hready.grows) henter

end Done

theorem independent_of_ready {order : List Nat} (hinputs : Inputs fs inputs)
    (hready : Ready fs base options inputs) (horder : order.Perm (List.range inputs.length)) :
    Independent fs options inputs (runInOrder fs options inputs order).1
      (runInOrder fs options inputs order).2 := by
  obtain ⟨hcomplete, hown, done, hdone, hreached⟩ := runInOrder_of_ready hinputs hready horder
  generalize (runInOrder fs options inputs order).1 = entries at *
  generalize (runInOrder fs options inputs order).2 = final at *
  have hmem : ∀ entry ∈ entries, entry.input ∈ inputs := fun entry hentry =>
    hcomplete ▸ List.mem_map_of_mem hentry
  -- an entry succeeds just if its job writes
  have hok : ∀ entry ∈ entries,
      entry.outcome.isOk = ((jobOf options inputs entry.input).write? fs base).isSome := by
    intro entry hentry
    rw [hown entry hentry]
    exact Job.isOk_alone (settled hinputs hready (hmem entry hentry)).toPlaced
  refine ⟨hcomplete, ?shared, ?alone, ?written, ?untouched, ?kept, ?others⟩
  case shared =>
    intro entry hentry hshared
    rw [hown entry hentry]
    exact alone_of_shared (hmem entry hentry) hshared
  case alone =>
    intro entry hentry hshared
    rw [hown entry hentry]
    exact .inl (alone_of_not_shared hinputs hshared)
  case written =>
    intro entry hentry hsuccess
    rw [hok entry hentry, Option.isSome_iff_exists] at hsuccess
    obtain ⟨write, hwrite⟩ := hsuccess
    obtain ⟨_, conversion, hconversion, _, hcontent⟩ := write?_jobOf_eq_some hwrite
    refine ⟨conversion, hconversion, ?_⟩
    rw [hcontent]
    exact read_of_locate (locate_of_write? hinputs hready hdone hreached (hmem entry hentry) hwrite)
  case untouched =>
    intro entry hentry hfailure
    rw [hok entry hentry, Option.isSome_eq_false_iff, Option.isNone_iff_eq_none] at hfailure
    exact untouched_of_ready hinputs hready hdone hreached (hmem entry hentry) hfailure
  case kept => exact fun input hinput => read_input_of_ready hinputs hready hdone hreached hinput
  case others =>
    intro location hnone
    apply (leaves_of_ready hinputs hready hdone hreached).lookup_iff
    intro hwritten
    obtain ⟨write, hin, rfl⟩ := List.mem_map.mp hwritten
    obtain ⟨input, hinput, hwrite⟩ := mem_writes (hdone.mem_iff.mp hin)
    have hlocate := locate_of_write? hinputs hready hdone hreached hinput hwrite
    rw [← hcomplete] at hinput
    obtain ⟨entry, hentry, rfl⟩ := List.mem_map.mp hinput
    have hsuccess : entry.outcome.isOk = true := by
      rw [hok entry hentry, hwrite]
      rfl
    exact hnone entry hentry hsuccess _ hlocate

theorem independent_of_refused {order : List Nat} {d directory : Path} {fault : SystemFault}
    {left : FileSystem} (hfs : fs.Nested) (hinputs : Inputs fs inputs)
    (hd : options.outputDirectory = some d) (hdirectory : directory.Orderly)
    (hup : ".." ∈ names directory → ".." ∈ names d)
    (hall : ∀ input, (options.outputFor input).containingDirectory = directory)
    (h : fs.makeDirectories directory = (.error fault, left))
    (horder : order.Perm (List.range inputs.length)) :
    Independent fs options inputs (runInOrder fs options inputs order).1
      (runInOrder fs options inputs order).2 := by
  obtain ⟨hcomplete, hown, hgrows⟩ := runInOrder_of_refused hfs hinputs hdirectory hall h horder
  generalize (runInOrder fs options inputs order).1 = entries at *
  generalize (runInOrder fs options inputs order).2 = final at *
  have hmem : ∀ entry ∈ entries, entry.input ∈ inputs := fun entry hentry =>
    hcomplete ▸ List.mem_map_of_mem hentry
  have hleaves : Leaves fs final [] :=
    ⟨hgrows.keeps, fun location content _ => hgrows.file location content, by simp⟩
  have hfailed : ∀ entry ∈ entries, entry.outcome.isOk = false := by
    intro entry hentry
    rcases hown entry hentry with houtcome | ⟨_, houtcome, _⟩
    · rw [houtcome]
      have hmade : fs.makeDirectories
          (jobOf options inputs entry.input).output.containingDirectory = (.error fault, left) := by
        rw [output_jobOf, hall entry.input, h]
      exact Job.isOk_alone_of_refused hmade
    · rw [houtcome]
      rfl
  refine ⟨hcomplete, ?shared, ?alone, ?written, ?untouched, ?kept, ?others⟩
  case shared =>
    intro entry hentry hshared
    obtain ⟨others, halone⟩ := alone_of_shared (hmem entry hentry) hshared
    rcases hown entry hentry with houtcome | ⟨hother, _⟩
    · exact ⟨others, houtcome.trans halone⟩
    · rw [halone] at hother
      cases hother
  case alone =>
    intro entry hentry hshared
    have halone := alone_of_not_shared hinputs hshared
    rcases hown entry hentry with houtcome | ⟨hown, hagain, hdots, hseen⟩
    · exact .inl (houtcome.trans halone)
    · rw [output_jobOf] at hown hagain hdots hseen
      rw [halone] at hown
      exact .inr ⟨⟨d, hd, hup (hall entry.input ▸ hdots)⟩, hown, List.mem_map.mp hseen, hagain⟩
  case written =>
    intro entry hentry hsuccess
    rw [hfailed entry hentry] at hsuccess
    cases hsuccess
  case untouched => exact fun _ _ _ => hleaves.untouched (by simp) (by simp)
  case kept =>
    exact fun input hinput => read_of_keeps hleaves.keeps (hinputs.found input hinput) (by simp)
  case others => exact fun _ _ => hleaves.lookup_iff (by simp)

/-- The inputs of a scan are converted each for itself, in whatever order. -/
theorem runInOrder_independent {root : Path} {recursive : Bool} {order : List Nat}
    (hfs : fs.WellFormed) (hscan : fs.scan root recursive = .ok inputs)
    (horder : order.Perm (List.range inputs.length)) :
    Independent fs options inputs (runInOrder fs options inputs order).1
      (runInOrder fs options inputs order).2 := by
  have hinputs : Inputs fs inputs := inputs_of_scan hfs hscan
  cases hdirectory : options.outputDirectory with
  | none => exact independent_of_ready hinputs (ready_beside hinputs hdirectory) horder
  | some d =>
    obtain ⟨directory, horderly, hup, hall⟩ := exists_containingDirectory hdirectory
    cases hmade : fs.makeDirectories directory with
    | mk outcome left =>
      cases outcome with
      | ok _ => exact independent_of_ready hinputs (ready_in hdirectory hall hmade) horder
      | error fault =>
        exact independent_of_refused hfs.nested' hinputs hdirectory horderly hup hall hmade horder

/-- A mesh, two meshes with one output, and a mesh that has a face whose corners are missing. -/
def fourMeshes : FileSystem :=
  let triangle := Node.file "v 0 0 0\nv 1 0 0\nv 0 1 0\nf 1 2 3\n".toUTF8
  ⟨[(["m"], .directory), (["m", "a.obj"], triangle), (["m", "b c.obj"], triangle),
    (["m", "b_c.obj"], triangle), (["m", "d.obj"], .file "f 1 2 3\n".toUTF8)], []⟩

theorem runInOrder_independent_four :
    let inputs : List Path := [⟨"m/a.obj"⟩, ⟨"m/b c.obj"⟩, ⟨"m/b_c.obj"⟩, ⟨"m/d.obj"⟩]
    fourMeshes.WellFormed ∧ fourMeshes.scan ⟨"m"⟩ false = .ok inputs ∧
      (runInOrder fourMeshes Options.default inputs [3, 1, 0, 2]).1.map
        (fun entry => entry.outcome.isOk) = [true, false, false, false] ∧
      Independent fourMeshes Options.default inputs
        (runInOrder fourMeshes Options.default inputs [3, 1, 0, 2]).1
        (runInOrder fourMeshes Options.default inputs [3, 1, 0, 2]).2 := by
  intro inputs
  have hfs : fourMeshes.WellFormed := ⟨by decide +kernel, by decide +kernel, by decide +kernel⟩
  have hscan : fourMeshes.scan ⟨"m"⟩ false = .ok inputs :=
    scan_of_pairwise ["m"] (by decide +kernel) (by decide +kernel) (by decide +kernel)
      (by decide +kernel)
  exact ⟨hfs, hscan, by decide +kernel, runInOrder_independent hfs hscan (by decide)⟩

/-- Two meshes, and a file in the way of the output directory `n/../f/y`. -/
def blockedMeshes : FileSystem :=
  let triangle := Node.file "v 0 0 0\nv 1 0 0\nv 0 1 0\nf 1 2 3\n".toUTF8
  ⟨[(["m"], .directory), (["m", "a.obj"], triangle), (["m", "b.obj"], triangle),
    (["f"], .file "x".toUTF8)], []⟩

/-- The first attempt makes `n` and finds a file at `n/../f`; the next one
fails to walk through it. -/
theorem outcome_ne_alone_of_blocked :
    let inputs : List Path := [⟨"m/a.obj"⟩, ⟨"m/b.obj"⟩]
    let options := { Options.default with outputDirectory := some ⟨"n/../f/y"⟩ }
    blockedMeshes.WellFormed ∧ blockedMeshes.scan ⟨"m"⟩ false = .ok inputs ∧
      ¬Shared options inputs ⟨"m/b.obj"⟩ ∧
      (blockedMeshes.convertTo options ⟨"m/b.obj"⟩ (options.outputFor ⟨"m/b.obj"⟩)).1 =
        .error (.ofSystem ⟨"n/../f/y"⟩ .alreadyExists) ∧
      (runInOrder blockedMeshes options inputs [0, 1]).1.map BatchEntry.outcome =
        [.error (.ofSystem ⟨"n/../f/y"⟩ .alreadyExists),
          .error (.ofSystem ⟨"n/../f/y"⟩ .notDirectory)] := by
  intro inputs options
  refine ⟨⟨by decide +kernel, by decide +kernel, by decide +kernel⟩, ?_, ?_, ?_, ?_⟩
  · exact scan_of_pairwise ["m"] (by decide +kernel) (by decide +kernel) (by decide +kernel)
      (by decide +kernel)
  · unfold Shared
    decide +kernel
  · decide +kernel
  · decide +kernel

end Independence

end Batch

end CollisionMesh
