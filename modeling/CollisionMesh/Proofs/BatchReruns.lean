import CollisionMesh.Proofs.Rescanning

/-!
# Batches that are run again

A second run of a batch finds the inputs as they were. Where the outputs can be written, it is a
continuation of the first one, and what it writes is there already. Where their directory cannot be
made, the first run has come to a state that no further attempt changes. The entries are the same,
but for how the making of that directory fails, and that only if its path leads up by two dots.
-/

namespace CollisionMesh

set_option autoImplicit false

open FileSystem

namespace Job

variable {fs base now final left : FileSystem} {jobs : List Job}
  {writes more : List (Location × ByteArray)}

/-- Jobs that leave one state at most for another, and that one for no further one,
end where they all stay. -/
theorem runJobs_of_settling (hfs : ∀ job ∈ jobs, (job.run fs).2 = fs ∨ (job.run fs).2 = left)
    (hleft : ∀ job ∈ jobs, (job.run left).2 = left) :
    ((runJobs fs jobs).2 = fs ∨ (runJobs fs jobs).2 = left) ∧
      (∀ job ∈ jobs, (job.run (runJobs fs jobs).2).2 = (runJobs fs jobs).2) ∧
      List.Forall₂
        (fun job outcome => outcome = job.alone fs ∨ outcome = job.alone (runJobs fs jobs).2)
        jobs (runJobs fs jobs).1 := by
  induction jobs with
  | nil => exact ⟨.inl rfl, by simp, .nil⟩
  | cons job jobs ih =>
    obtain ⟨hjob, hrest⟩ := List.forall_mem_cons.mp hfs
    obtain ⟨hstays, hrestStays⟩ := List.forall_mem_cons.mp hleft
    obtain ⟨hfinal, hidle, houtcomes⟩ := ih hrest hrestStays
    simp only [runJobs]
    rcases hjob with hjob | hjob
    · rw [hjob]
      refine ⟨hfinal, List.forall_mem_cons.mpr ⟨?_, hidle⟩, .cons (.inl rfl) houtcomes⟩
      rcases hfinal with hfinal | hfinal
      · rw [hfinal, hjob]
      · rw [hfinal, hstays]
    · rw [hjob, runJobs_of_idle hrestStays]
      refine ⟨.inr rfl, List.forall_mem_cons.mpr ⟨hstays, hrestStays⟩, .cons (.inl rfl) ?_⟩
      rw [List.forall₂_map_right_iff, List.forall₂_same]
      exact fun _ _ => .inr rfl

/-- A job whose directory cannot be made leaves a system for what the attempt makes, at most,
and that for nothing. -/
theorem settling_of_refused (job : Job) {directory : Path} {fault : SystemFault} (hfs : fs.Nested)
    (hdirectory : directory.Orderly) (h : fs.makeDirectories directory = (.error fault, left))
    (hfound : fs.locate job.input ≠ .error .notFound)
    (hjob : job.output.containingDirectory = directory) :
    ((job.run fs).2 = fs ∨ (job.run fs).2 = left) ∧ (job.run left).2 = left ∧
      job.Agrees fs [.error (.ofSystem directory fault)] (job.alone left) := by
  obtain ⟨again, hagain, _⟩ := makeDirectories_again hfs hdirectory h
  refine ⟨?_, ?_, ?_⟩
  · have hran : job.Agrees fs [] (job.run fs).1 ∧ _ :=
      run_of_refused hfs hdirectory h hfound hjob (.inl rfl)
    exact hran.2.imp_right And.left
  · exact run_of_idle (by rw [hjob, hagain])
  · exact (run_of_refused hfs hdirectory h hfound hjob (.inr ⟨rfl, List.mem_cons_self⟩)).1

/-- What is written again is there already. -/
theorem Reached.sameFiles (hgrows : Grows fs base) (h : Reached fs base writes now)
    (hfinal : Reached fs base (writes ++ more) final) (hmore : more ⊆ writes)
    (hwrites : Consistent writes) :
    SameFiles now final none := by
  have hsub : ∀ write ∈ writes ++ more, write ∈ writes := fun write hmem =>
    (List.mem_append.mp hmem).elim id fun hin => hmore hin
  have hleaves := h.leaves hgrows hwrites
  have hagain := hfinal.leaves hgrows fun a ha b hb => hwrites a (hsub a ha) b (hsub b hb)
  intro location content _
  by_cases hmem : location ∈ writes.map Prod.fst
  · obtain ⟨write, hwrite, rfl⟩ := List.mem_map.mp hmem
    rw [hleaves.written write hwrite, hagain.written write (List.mem_append_left _ hwrite)]
  · have hmem' : location ∉ (writes ++ more).map Prod.fst := by
      intro hin
      obtain ⟨write, hwrite, rfl⟩ := List.mem_map.mp hin
      exact hmem (List.mem_map_of_mem (hsub write hwrite))
    rw [hleaves.lookup_iff hmem, hagain.lookup_iff hmem']

end Job

namespace Batch

/-- What an entry may be in a second run: the same, or, where the path of the output directory has
two dots, the failure to walk through a file that the first run failed to make a directory of. -/
def Repeats (options : Options) (entry again : BatchEntry) : Prop :=
  again = entry ∨ (∃ d, options.outputDirectory = some d ∧ ".." ∈ names d) ∧
    again.input = entry.input ∧
    entry.outcome =
      .error (.ofSystem (options.outputFor entry.input).containingDirectory .alreadyExists) ∧
    again.outcome =
      .error (.ofSystem (options.outputFor entry.input).containingDirectory .notDirectory)

section Again

variable {fs base : FileSystem} {options : Options} {inputs : List Path} {order order' : List Nat}

theorem forall₂_of_outcomes {R : BatchEntry → BatchEntry → Prop} {entries again : List BatchEntry}
    (outcome : Path → Except Failure Artifact) (h : entries.map BatchEntry.input = inputs)
    (hagain : again.map BatchEntry.input = inputs)
    (houtcome : ∀ entry ∈ again, entry.outcome = outcome entry.input)
    (hR : ∀ entry ∈ entries, R entry ⟨entry.input, outcome entry.input⟩) :
    List.Forall₂ R entries again := by
  have hmap : again = entries.map fun entry => ⟨entry.input, outcome entry.input⟩ := by
    calc again = again.map fun entry => ⟨entry.input, outcome entry.input⟩ := by
          refine (List.map_id again).symm.trans (List.map_congr_left fun entry hentry => ?_)
          exact eq_mk rfl (houtcome entry hentry)
      _ = (again.map BatchEntry.input).map fun input => ⟨input, outcome input⟩ := by
        rw [List.map_map]; rfl
      _ = entries.map fun entry => ⟨entry.input, outcome entry.input⟩ := by
        rw [hagain, ← h, List.map_map]; rfl
  rw [hmap, List.forall₂_map_right_iff, List.forall₂_same]
  exact hR

theorem again_of_ready (hinputs : Inputs fs inputs) (hready : Ready fs base options inputs)
    (horder : order.Perm (List.range inputs.length))
    (horder' : order'.Perm (List.range inputs.length)) :
    let first := runInOrder fs options inputs order
    let second := runInOrder first.2 options inputs order'
    List.Forall₂ (Repeats options) first.1 second.1 ∧ SameFiles first.2 second.2 none := by
  intro first second
  obtain ⟨hcomplete, hown, done, hdone, hreached⟩ := runInOrder_of_ready hinputs hready horder
  obtain ⟨hcomplete', hown', more, hmore, hfinal⟩ :=
    runInOrder_of_reached hinputs hready hreached hdone.subset horder'
  constructor
  · refine forall₂_of_outcomes (fun input => (jobOf options inputs input).alone fs) hcomplete
      hcomplete' hown' ?_
    exact fun entry hentry => .inl (eq_mk rfl (hown entry hentry)).symm
  · exact hreached.sameFiles hready.grows hfinal (hmore.trans hdone.symm).subset
      (consistent_of_subset hinputs hready hdone.subset)

theorem again_of_refused {d directory : Path} {fault : SystemFault} {left : FileSystem}
    (hfs : fs.Nested) (hinputs : Inputs fs inputs) (hd : options.outputDirectory = some d)
    (hdirectory : directory.Orderly) (hup : ".." ∈ names directory → ".." ∈ names d)
    (hall : ∀ input, (options.outputFor input).containingDirectory = directory)
    (h : fs.makeDirectories directory = (.error fault, left))
    (horder : order.Perm (List.range inputs.length))
    (horder' : order'.Perm (List.range inputs.length)) :
    let first := runInOrder fs options inputs order
    let second := runInOrder first.2 options inputs order'
    List.Forall₂ (Repeats options) first.1 second.1 ∧ SameFiles first.2 second.2 none := by
  intro first second
  let done := order.filterMap fun i => (jobs options inputs)[i]?
  let again := order'.filterMap fun i => (jobs options inputs)[i]?
  have hsettling : ∀ input ∈ inputs, _ := fun input hmem =>
    (jobOf options inputs input).settling_of_refused hfs hdirectory h (hinputs.found input hmem)
      (output_jobOf options inputs input ▸ hall input)
  have hjobs : ∀ job ∈ done, ((job.run fs).2 = fs ∨ (job.run fs).2 = left) ∧
      (job.run left).2 = left := by
    intro job hjob
    obtain ⟨input, hmem, rfl⟩ := mem_jobs_of_order hjob
    exact ⟨(hsettling input hmem).1, (hsettling input hmem).2.1⟩
  -- the first run may end with what an attempt has made, but there the second
  -- run makes nothing more
  obtain ⟨hfinal, hidle, houtcomes⟩ :=
    Job.runJobs_of_settling (fun job hjob => (hjobs job hjob).1) fun job hjob => (hjobs job hjob).2
  obtain ⟨hcomplete, hown⟩ := entries_of_outcomes horder houtcomes
  change first.2 = fs ∨ first.2 = left at hfinal
  have hperm : again.Perm done := (horder'.trans horder.symm).filterMap _
  have hsecond : runJobs first.2 again = (again.map fun job => job.alone first.2, first.2) :=
    Job.runJobs_of_idle fun job hjob => hidle job (hperm.mem_iff.mp hjob)
  have houtcomes' : List.Forall₂ (fun job outcome => outcome = job.alone first.2) again
      (runJobs first.2 again).1 := by
    rw [hsecond, List.forall₂_map_right_iff, List.forall₂_same]
    exact fun _ _ => rfl
  obtain ⟨hcomplete', hown'⟩ := entries_of_outcomes horder' houtcomes'
  have hstays : second.2 = first.2 := by
    change (runJobs first.2 again).2 = first.2
    rw [hsecond]
  refine ⟨?_, fun location content _ => by rw [hstays]⟩
  refine forall₂_of_outcomes (fun input => (jobOf options inputs input).alone first.2) hcomplete
    hcomplete' hown' ?_
  intro entry hentry
  rcases hown entry hentry with houtcome | houtcome
  · rcases hfinal with hfinal | hfinal
    · exact .inl (eq_mk rfl (by rw [houtcome, hfinal])).symm
    · rw [hfinal]
      have hmem : entry.input ∈ inputs := hcomplete ▸ List.mem_map_of_mem hentry
      rcases (hsettling entry.input hmem).2.2 with halone | ⟨halone, hagain, hdots, _⟩
      · exact .inl (eq_mk rfl (houtcome.trans halone.symm)).symm
      · rw [output_jobOf] at halone hagain hdots
        exact .inr ⟨⟨d, hd, hup (hall entry.input ▸ hdots)⟩, rfl, houtcome.trans halone, hagain⟩
  · exact .inl (eq_mk rfl houtcome).symm

/-- A second run of a batch over the inputs of a scan, in whatever order, finds the same inputs, has
the same entries but for attempts to make a directory above which two dots lead up, and leaves every
file as the first run left it. -/
theorem runInOrder_again {root : Path} {recursive : Bool} (hfs : fs.WellFormed)
    (hscan : fs.scan root recursive = .ok inputs) (horder : order.Perm (List.range inputs.length))
    (horder' : order'.Perm (List.range inputs.length)) :
    let first := runInOrder fs options inputs order
    let second := runInOrder first.2 options inputs order'
    first.2.scan root recursive = .ok inputs ∧ List.Forall₂ (Repeats options) first.1 second.1 ∧
      SameFiles first.2 second.2 none ∧
      ∀ now, runInOrder now options inputs (List.range inputs.length) = run now options inputs := by
  intro first second
  have hinputs : Inputs fs inputs := inputs_of_scan hfs hscan
  have hagain : List.Forall₂ (Repeats options) first.1 second.1 ∧
      SameFiles first.2 second.2 none := by
    cases hd : options.outputDirectory with
    | none => exact again_of_ready hinputs (ready_beside hinputs hd) horder horder'
    | some d =>
      obtain ⟨directory, horderly, hup, hall⟩ := exists_containingDirectory hd
      cases hmade : fs.makeDirectories directory with
      | mk outcome left =>
        cases outcome with
        | ok _ => exact again_of_ready hinputs (ready_in hd hall hmade) horder horder'
        | error fault =>
          exact again_of_refused hfs.nested' hinputs hd horderly hup hall hmade horder horder'
  exact ⟨scan_runInOrder hfs options inputs order hscan, hagain.1, hagain.2,
    fun now => runInOrder_range now options inputs⟩

/-- Outputs among the inputs, of which two are refused and one has no success. -/
theorem runInOrder_again_four :
    let inputs : List Path := [⟨"m/a.obj"⟩, ⟨"m/b c.obj"⟩, ⟨"m/b_c.obj"⟩, ⟨"m/d.obj"⟩]
    let first := runInOrder fourMeshes Options.default inputs [3, 1, 0, 2]
    let second := runInOrder first.2 Options.default inputs [0, 1, 2, 3]
    fourMeshes.WellFormed ∧ fourMeshes.scan ⟨"m"⟩ false = .ok inputs ∧
      first.1.map (fun entry => entry.outcome.isOk) = [true, false, false, false] ∧
      first.2.scan ⟨"m"⟩ false = .ok inputs ∧
      List.Forall₂ (Repeats Options.default) first.1 second.1 ∧
      SameFiles first.2 second.2 none := by
  intro inputs first second
  have hfs : fourMeshes.WellFormed := ⟨by decide +kernel, by decide +kernel, by decide +kernel⟩
  have hscan : fourMeshes.scan ⟨"m"⟩ false = .ok inputs :=
    scan_of_pairwise ["m"] (by decide +kernel) (by decide +kernel) (by decide +kernel)
      (by decide +kernel)
  have horder : [3, 1, 0, 2].Perm (List.range inputs.length) := by decide
  have horder' : [0, 1, 2, 3].Perm (List.range inputs.length) := by decide
  obtain ⟨hagain, hentries, hfiles, _⟩ :=
    runInOrder_again hfs hscan horder horder'
  exact ⟨hfs, hscan, by decide +kernel, hagain, hentries, hfiles⟩

/-- A mesh, and a file in the way of the output directory `n/../f/y`. -/
def blockedMesh : FileSystem :=
  ⟨[(["m"], .directory), (["m", "a.obj"], .file "v 0 0 0\nv 1 0 0\nv 0 1 0\nf 1 2 3\n".toUTF8),
    (["f"], .file "x".toUTF8)], []⟩

/-- The first run makes `n`, and only then the second one can walk as far as the file. -/
theorem run_again_ne_of_blocked :
    let inputs : List Path := [⟨"m/a.obj"⟩]
    let options := { Options.default with outputDirectory := some ⟨"n/../f/y"⟩ }
    let first := run blockedMesh options inputs
    let second := run first.2 options inputs
    blockedMesh.WellFormed ∧ blockedMesh.scan ⟨"m"⟩ false = .ok inputs ∧
      first.2.scan ⟨"m"⟩ false = .ok inputs ∧
      first.1.map BatchEntry.outcome = [.error (.ofSystem ⟨"n/../f/y"⟩ .alreadyExists)] ∧
      second.1.map BatchEntry.outcome = [.error (.ofSystem ⟨"n/../f/y"⟩ .notDirectory)] := by
  intro inputs options first second
  refine ⟨⟨by decide +kernel, by decide +kernel, by decide +kernel⟩, ?_, ?_, ?_, ?_⟩
  · exact scan_of_pairwise ["m"] (by decide +kernel) (by decide +kernel) (by decide +kernel)
      (by decide +kernel)
  · exact scan_of_pairwise ["m"] (by decide +kernel) (by decide +kernel) (by decide +kernel)
      (by decide +kernel)
  · decide +kernel
  · decide +kernel

end Again

end Batch

end CollisionMesh
