import CollisionMesh.Proofs.AllOrNothing
import CollisionMesh.Proofs.BatchOrders
import CollisionMesh.Proofs.Destinations

/-!
# What runs of jobs leave

Here nothing is asked of the jobs: one may read what another one writes, and two may write to one
place. A run changes no file but at the places that outputs of its jobs lead to, and a file that a
job has put at its place stays there as long as no later job has that place.
-/

namespace CollisionMesh

set_option autoImplicit false

open FileSystem

namespace FileSystem

variable {fs mid now : FileSystem} {places more : List Location}

/-- A system that has come from `fs` by the making of directories and by
files put at some places. -/
structure Changes (fs now : FileSystem) (places : List Location) : Prop where
  keeps : Keeps fs now places
  file : ∀ location content, location ∉ places →
    now.lookup location = some (.file content) → fs.lookup location = some (.file content)

theorem Grows.changes (h : Grows fs now) : Changes fs now [] :=
  ⟨h.keeps, fun location content _ => h.file location content⟩

theorem changes_insert {target : Location} {p : Path} (h : fs.place p = .ok target)
    (content : ByteArray) :
    Changes fs (fs.insert target (.file content)) [target] := by
  refine ⟨keeps_of_place h content, fun location other hmem hfile => ?_⟩
  rwa [lookup_insert_of_ne fs (by simpa using hmem)] at hfile

/-- A path to a file leads there later too, whatever the file is by then. -/
theorem Keeps.locate_of_file (h : Keeps fs now places) {p : Path} {location : Location}
    {content other : ByteArray} (hlocate : fs.locate p = .ok (location, .file content))
    (hlookup : now.lookup location = some (.file other)) :
    now.locate p = .ok (location, .file other) := by
  obtain ⟨hcheck, hwalk, hfile, hslash⟩ := (locate_eq_ok_iff fs p _ _).mp hlocate
  rw [locate_eq_ok_iff, h.origin]
  refine ⟨hcheck, h.walk_of_ok hwalk, hlookup, fun htrue => ?_⟩
  rw [hslash htrue] at hfile
  cases hfile

namespace Changes

theorem refl (fs : FileSystem) : Changes fs fs [] := (Grows.refl fs).changes

theorem trans (h : Changes fs mid places) (hmore : Changes mid now more) :
    Changes fs now (places ++ more) := by
  refine ⟨h.keeps.trans hmore.keeps, fun location content hmem hfile => ?_⟩
  rw [List.mem_append, not_or] at hmem
  exact h.file location content hmem.1 (hmore.file location content hmem.2 hfile)

theorem lookup_iff (h : Changes fs now places) {location : Location} (hmem : location ∉ places)
    (content : ByteArray) :
    now.lookup location = some (.file content) ↔ fs.lookup location = some (.file content) :=
  ⟨h.file location content hmem, h.keeps.lookup location _ hmem⟩

end Changes

end FileSystem

namespace Job

variable {job : Job} {fs base now final : FileSystem} {jobs : List Job}

/-- The place that the output of a job leads to. -/
def destination (job : Job) (fs : FileSystem) : Location :=
  job.output.destination fs.workingDirectory

/-- How a job comes out of the system `fs`. -/
inductive Ran (job : Job) (fs : FileSystem) : Except Failure Artifact → FileSystem → Prop where
  | refused {failure : Failure} (h : job.refusal = some failure) : Ran job fs (.error failure) fs
  | failed {failure : Failure} {left : FileSystem} (refusal : job.refusal = none)
      (grows : Grows fs left) :
      Ran job fs (.error failure) left
  | written {conversion : Conversion} {left : FileSystem} (refusal : job.refusal = none)
      (convert : fs.convert job.options job.input = .ok conversion) (grows : Grows fs left)
      (place : left.place job.output = .ok (job.destination fs)) :
      Ran job fs (.ok (conversion.artifact job.output))
        (left.insert (job.destination fs) (.file conversion.source.toUTF8))

theorem ran_run (job : Job) (fs : FileSystem) : job.Ran fs (job.run fs).1 (job.run fs).2 := by
  unfold run
  cases hrefusal : job.refusal with
  | some failure => exact .refused hrefusal
  | none =>
    simp only [convertTo]
    cases hconvert : fs.convert job.options job.input with
    | error failure => exact .failed hrefusal (Grows.refl fs)
    | ok conversion =>
      simp only [Except.map, publish]
      rcases writeFile_cases fs job.output conversion.source.toUTF8 with
        ⟨failure, left, hgrows, hwrite⟩ | ⟨left, target, hgrows, hplace, hwrite⟩
      · rw [hwrite]
        exact .failed hrefusal hgrows
      · have htarget : target = job.destination fs := by
          rw [destination, ← hgrows.keeps.workingDirectory]
          exact destination_of_place hplace
        subst htarget
        rw [hwrite]
        exact .written hrefusal hconvert hgrows hplace

theorem Ran.changes {outcome : Except Failure Artifact} (h : job.Ran fs outcome now) :
    ∃ places, Changes fs now places ∧
      ∀ place ∈ places, job.refusal = none ∧ job.output.LeadsTo fs.workingDirectory place := by
  cases h with
  | refused => exact ⟨[], Changes.refl fs, by simp⟩
  | failed _ grows => exact ⟨[], grows.changes, by simp⟩
  | @written conversion _ refusal _ grows place =>
    have hchanges := grows.changes.trans (changes_insert place conversion.source.toUTF8)
    refine ⟨_, hchanges, fun location hmem => ⟨refusal, _, hchanges.keeps.workingDirectory, ?_⟩⟩
    rw [List.nil_append, List.mem_singleton] at hmem
    rw [hmem]
    exact ⟨_, locate_insert_of_place place _⟩

theorem destination_eq_of_changes {places : List Location} (h : Changes fs now places) (job : Job) :
    job.destination now = job.destination fs := by
  rw [destination, destination, h.keeps.workingDirectory]

theorem exists_changes_runJobs (now : FileSystem) (jobs : List Job) :
    ∃ places, Changes now (runJobs now jobs).2 places ∧ ∀ place ∈ places, ∃ job ∈ jobs,
      job.refusal = none ∧ job.output.LeadsTo now.workingDirectory place := by
  induction jobs generalizing now with
  | nil => exact ⟨[], Changes.refl now, by simp⟩
  | cons job jobs ih =>
    obtain ⟨places, hfirst, hplaces⟩ := (job.ran_run now).changes
    obtain ⟨more, hrest, hmore⟩ := ih (job.run now).2
    refine ⟨places ++ more, hfirst.trans hrest, fun place hmem => ?_⟩
    rcases List.mem_append.mp hmem with hmem | hmem
    · exact ⟨job, List.mem_cons_self, hplaces place hmem⟩
    · obtain ⟨later, hlater, hrefusal, hplace⟩ := hmore place hmem
      rw [hfirst.keeps.workingDirectory] at hplace
      exact ⟨later, List.mem_cons_of_mem job hlater, hrefusal, hplace⟩

theorem snd_runJobs_append (now : FileSystem) (before after : List Job) :
    (runJobs now (before ++ after)).2 = (runJobs (runJobs now before).2 after).2 := by
  induction before generalizing now with
  | nil => rfl
  | cons job before ih => exact ih (job.run now).2

theorem forall₂_runJobs {R : Job → Except Failure Artifact → Prop}
    (h : ∀ before job after, jobs = before ++ job :: after →
      R job (job.run (runJobs now before).2).1) :
    List.Forall₂ R jobs (runJobs now jobs).1 := by
  induction jobs generalizing now with
  | nil => exact .nil
  | cons job jobs ih =>
    refine .cons (h [] job jobs rfl) (ih fun before other after hsplit => ?_)
    exact h (job :: before) other after (by rw [hsplit, List.cons_append])

/-- What a job has written in its turn, the run leaves, unless a later job
writes to the same place. -/
theorem locate_of_run {before after : List Job} {artifact : Artifact}
    (h : (job.run (runJobs now before).2).1 = .ok artifact)
    (hafter : ∀ later ∈ after, later.destination now ≠ job.destination now) :
    ∃ conversion, (runJobs now before).2.convert job.options job.input = .ok conversion ∧
      artifact = conversion.artifact job.output ∧
      (runJobs now (before ++ job :: after)).2.locate job.output =
        .ok (job.destination now, .file conversion.source.toUTF8) := by
  obtain ⟨_, hbefore, _⟩ := exists_changes_runJobs now before
  have hdestination := destination_eq_of_changes hbefore job
  rw [snd_runJobs_append]
  change ∃ conversion, _ ∧ _ ∧
    (runJobs (job.run (runJobs now before).2).2 after).2.locate job.output = _
  generalize hturn : (runJobs now before).2 = turn at h hbefore hdestination ⊢
  have hran := job.ran_run turn
  rw [h] at hran
  generalize hnext : (job.run turn).2 = next at hran ⊢
  cases hran with
  | @written conversion left refusal convert grows place =>
    refine ⟨conversion, convert, rfl, ?_⟩
    -- where a path leads to depends on the working directory alone, and that no job changes
    obtain ⟨places, hchanges, hplaces⟩ :=
      exists_changes_runJobs (left.insert (job.destination turn) (.file conversion.source.toUTF8))
        after
    rw [← hdestination]
    refine hchanges.keeps.locate_of_ok (locate_insert_of_place place _) fun hmem => ?_
    obtain ⟨later, hlater, _, hplace⟩ := hplaces _ hmem
    have hwritten :=
      hbefore.trans (grows.changes.trans (changes_insert place conversion.source.toUTF8))
    apply hafter later hlater
    rw [← hdestination, hplace.eq_destination, hwritten.keeps.workingDirectory, destination]

end Job

end CollisionMesh
