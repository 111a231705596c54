import CollisionMesh.Batch
import CollisionMesh.Proofs.PathJoin
import CollisionMesh.Proofs.TemporaryFiles

/-!
# Jobs that share a file system

A job finds the system as the jobs before it left it. What they can leave is told here: the system
`base` after the making of directories, with files put at the places of the jobs that succeeded. A
job whose own place is none of these has the outcome that it has alone. Where the directory of the
outputs cannot be made, no job writes, and only how the making fails may differ between the first
attempt and a later one.
-/

namespace CollisionMesh

set_option autoImplicit false

namespace FileSystem

def putAll (fs : FileSystem) (writes : List (Location × ByteArray)) : FileSystem :=
  writes.foldl (fun fs write => fs.insert write.1 (.file write.2)) fs

variable {fs base now : FileSystem} {writes : List (Location × ByteArray)}

theorem putAll_concat (fs : FileSystem) (writes : List (Location × ByteArray)) (target : Location)
    (content : ByteArray) :
    fs.putAll (writes ++ [(target, content)]) =
      (fs.putAll writes).insert target (.file content) := by
  rw [putAll, List.foldl_concat, putAll]

theorem lookup_putAll_of_not_mem {location : Location} (h : location ∉ writes.map Prod.fst) :
    (fs.putAll writes).lookup location = fs.lookup location := by
  induction writes using List.reverseRecOn with
  | nil => rfl
  | append_singleton writes write ih =>
    rw [List.map_append, List.mem_append, not_or] at h
    rw [putAll_concat, lookup_insert_of_ne _ (by simpa using h.2), ih h.1]

/-- Whether what is put at one place is always the same. -/
def Consistent (writes : List (Location × ByteArray)) : Prop :=
  ∀ write ∈ writes, ∀ other ∈ writes, write.1 = other.1 → write = other

theorem consistent_of_nodup (h : (writes.map Prod.fst).Nodup) : Consistent writes :=
  fun _ hwrite _ hother => List.inj_on_of_nodup_map h hwrite hother

theorem lookup_putAll_of_mem {write : Location × ByteArray} (hne : write.1 ≠ [])
    (hwrites : Consistent writes) (h : write ∈ writes) :
    (fs.putAll writes).lookup write.1 = some (.file write.2) := by
  induction writes using List.reverseRecOn with
  | nil => cases h
  | append_singleton writes last ih =>
    rw [putAll_concat]
    by_cases hlast : write.1 = last.1
    · rw [hwrites write h last (List.mem_append_right _ List.mem_cons_self) hlast] at hne ⊢
      exact lookup_insert_self _ hne _
    · have hmem : write ∈ writes :=
        (List.mem_append.mp h).resolve_right fun hin =>
          hlast (congrArg Prod.fst (List.mem_singleton.mp hin))
      rw [lookup_insert_of_ne _ hlast]
      exact ih
        (fun a ha b hb => hwrites a (List.mem_append_left _ ha) b (List.mem_append_left _ hb)) hmem

/-- No directory comes to be where a file is put. -/
theorem lookup_of_putAll {location : Location}
    (h : (fs.putAll writes).lookup location = some .directory) :
    fs.lookup location = some .directory := by
  induction writes using List.reverseRecOn with
  | nil => exact h
  | append_singleton writes last ih =>
    rw [putAll_concat] at h
    by_cases hne : location = []
    · rw [hne]
      exact fs.lookup_nil
    by_cases hlast : location = last.1
    · rw [hlast, lookup_insert_self _ (hlast ▸ hne)] at h
      cases h
    · rw [lookup_insert_of_ne _ hlast] at h
      exact ih h

theorem keeps_putAll (h : ∀ write ∈ writes, fs.lookup write.1 ≠ some .directory) :
    Keeps fs (fs.putAll writes) (writes.map Prod.fst) := by
  induction writes using List.reverseRecOn with
  | nil => exact Keeps.refl fs
  | append_singleton writes write ih =>
    have hinit := ih fun other hother => h other (List.mem_append_left _ hother)
    rw [putAll_concat, List.map_append]
    refine hinit.trans (Keeps.of_insert_file ?_ write.2)
    intro hdirectory
    by_cases hmem : write.1 ∈ writes.map Prod.fst
    · obtain ⟨_, content, hfile⟩ := hinit.file _ hmem
      rw [hfile] at hdirectory
      cases hdirectory
    · rw [lookup_putAll_of_not_mem hmem] at hdirectory
      exact h write (by simp) hdirectory

/-- Reading hangs on what stands where the path leads, and the way there cannot
change but to nowhere. -/
theorem read_of_keeps {places : List Location} (h : Keeps fs now places) {p : Path}
    (hfound : fs.locate p ≠ .error .notFound)
    (hapart : ∀ location node, fs.locate p = .ok (location, node) → location ∉ places) :
    now.read p = fs.read p := by
  cases hlocate : fs.locate p with
  | ok found =>
    obtain ⟨location, node⟩ := found
    rw [read, read, hlocate, h.locate_of_ok hlocate (hapart location node hlocate)]
  | error fault =>
    have hfault : fault ≠ .notFound := fun heq => hfound (heq ▸ hlocate)
    rw [read, read, hlocate, h.locate_of_error hlocate hfault]

/-- A conversion asks nothing of a system but what its input holds. -/
theorem convert_of_read {input : Path} (h : now.read input = fs.read input) (options : Options) :
    now.convert options input = fs.convert options input := by
  rw [convert, convert, Mesh.load, Mesh.load, h]

section Placing

variable {places : List Location} {p : Path} {before : List (List Char)} {name : String}

/-- With its directory in place, where a file goes is settled, unless its
path is refused as such. -/
theorem locateParent_of_keeps (h : Keeps fs now places) (hp : p.pieces = before ++ [name.toList])
    (hname : IsName name) (hdirectory : fs.isDirectory p.containingDirectory = true) :
    now.locateParent p = fs.locateParent p := by
  cases hcheck : checkPath p with
  | error fault => rw [locateParent, locateParent, hcheck]; rfl
  | ok _ =>
    obtain ⟨_, location, henter⟩ := (isDirectory_iff_enter _ _).mp hdirectory
    have hlocate := Path.locateParent_of_pieces hp hname hcheck fs
    rw [henter] at hlocate
    rw [hlocate]
    exact h.locateParent_of_ok hlocate

theorem place_of_keeps (h : Keeps fs now places) (hp : p.pieces = before ++ [name.toList])
    (hname : IsName name) (hdirectory : fs.isDirectory p.containingDirectory = true)
    (hfree : ∀ target, fs.place p = .ok target → now.lookup target ≠ some .directory) :
    now.place p = fs.place p := by
  have hlocate := locateParent_of_keeps h hp hname hdirectory
  by_cases hok : ∃ target, fs.place p = .ok target
  · obtain ⟨target, hplace⟩ := hok
    obtain ⟨hnul, hslash, _, location, last, hfound, hdot, hdots, hstep⟩ :=
      (place_eq_ok_iff fs p target).mp hplace
    rw [hplace, place_eq_ok_iff, hlocate]
    exact ⟨hnul, hslash, hfree target hplace, location, last, hfound, hdot, hdots,
      by rw [h.step (by simp [hstep]), hstep]⟩
  · have hno :=
      fun target => mt (place_eq_ok_iff fs p target).mpr fun hplace => hok ⟨target, hplace⟩
    unfold place
    rw [hlocate]
    split
    · rfl
    · rename_i hnul
      cases hfound : fs.locateParent p with
      | error fault => rfl
      | ok found =>
        obtain ⟨location, name?⟩ := found
        cases name? with
        | none => rfl
        | some last =>
          change (if last = "." ∨ last = ".." then _ else _) =
            if last = "." ∨ last = ".." then _ else _
          split
          · rfl
          · rename_i hdots
            rw [not_or] at hdots
            have hlookup := ((locateParent_eq_ok_iff _ _ _ _).mp hfound).2.2.1
            rw [step_of_directory (h.directory hlookup), ← step_of_directory hlookup]
            cases hstep : fs.step location last with
            | error fault => rfl
            | ok target =>
              change (if p.endsInSlash then _ else _) = if p.endsInSlash then _ else _
              split
              · rfl
              · rename_i hslash
                have hdirectory : fs.lookup target = some .directory := by
                  by_contra hother
                  exact hno target ⟨by simpa using hnul, by simpa using hslash, hother,
                    location, last, hfound, hdots.1, hdots.2, hstep⟩
                rw [hdirectory, h.directory hdirectory]

end Placing

/-- A system that has come from `fs` by the making of directories and the writing of some files. -/
structure Leaves (fs now : FileSystem) (writes : List (Location × ByteArray)) : Prop where
  keeps : Keeps fs now (writes.map Prod.fst)
  file : ∀ location content, location ∉ writes.map Prod.fst →
    now.lookup location = some (.file content) → fs.lookup location = some (.file content)
  written : ∀ write ∈ writes, now.lookup write.1 = some (.file write.2)

/-- A file that a path leads to, before or after, is the one that was there. -/
def Untouched (fs now : FileSystem) (p : Path) : Prop :=
  ∀ location content,
    (fs.locate p = .ok (location, .file content) → now.locate p = .ok (location, .file content)) ∧
    (now.locate p = .ok (location, .file content) → fs.lookup location = some (.file content))

theorem Leaves.lookup_iff (h : Leaves fs now writes) {location : Location}
    (hmem : location ∉ writes.map Prod.fst) (content : ByteArray) :
    now.lookup location = some (.file content) ↔ fs.lookup location = some (.file content) :=
  ⟨h.file location content hmem, h.keeps.lookup location _ hmem⟩

theorem Leaves.untouched (h : Leaves fs now writes) {p : Path}
    (hbefore : ∀ location node, fs.locate p = .ok (location, node) → location ∉ writes.map Prod.fst)
    (hafter : ∀ location node, now.locate p = .ok (location, node) →
      location ∉ writes.map Prod.fst) :
    Untouched fs now p := by
  intro location content
  constructor
  · intro hlocate
    exact h.keeps.locate_of_ok hlocate (hbefore location _ hlocate)
  · intro hlocate
    exact h.file location content (hafter location _ hlocate) (lookup_of_locate hlocate)

end FileSystem

open FileSystem

namespace Job

def alone (job : Job) (fs : FileSystem) : Except Failure Artifact := (job.run fs).1

/-- What a job puts where, if it succeeds. -/
def write? (job : Job) (fs base : FileSystem) : Option (Location × ByteArray) :=
  match job.refusal, fs.convert job.options job.input, base.place job.output with
  | none, .ok conversion, .ok target => some (target, conversion.source.toUTF8)
  | _, _, _ => none

theorem write?_eq_some_iff {job : Job} {fs base : FileSystem} {write : Location × ByteArray} :
    job.write? fs base = some write ↔
      job.refusal = none ∧ ∃ conversion, fs.convert job.options job.input = .ok conversion ∧
        base.place job.output = .ok write.1 ∧ conversion.source.toUTF8 = write.2 := by
  unfold write?
  constructor
  · intro h
    split at h
    · rename_i hrefusal hconversion htarget
      cases h
      exact ⟨hrefusal, _, hconversion, htarget, rfl⟩
    · cases h
  · rintro ⟨hrefusal, conversion, hconversion, htarget, hcontent⟩
    rw [hrefusal, hconversion, htarget]
    exact congrArg some (Prod.ext rfl hcontent)

/-- Whether what a job reads stands at none of some places. -/
def Apart (job : Job) (fs : FileSystem) (places : List Location) : Prop :=
  ∀ location node, fs.locate job.input = .ok (location, node) → location ∉ places

/-- A job whose input is there and whose output goes to a directory of `base`. -/
structure Placed (job : Job) (fs base : FileSystem) : Prop where
  found : fs.locate job.input ≠ .error .notFound
  leaf : ∃ before name, job.output.pieces = before ++ [name.toList] ∧ IsName name
  directory : ∀ conversion, job.refusal = none → fs.convert job.options job.input = .ok conversion →
    fs.makeDirectories job.output.containingDirectory = (.ok (), base)

/-- Such a job whose input stands apart from some places. -/
structure Settled (job : Job) (fs base : FileSystem) (targets : List Location) : Prop extends
    job.Placed fs base where
  apart : job.Apart fs targets

/-- What jobs that wrote some files have made of the system `fs`. -/
structure Reached (fs base : FileSystem) (writes : List (Location × ByteArray)) (now : FileSystem) :
    Prop where
  state : now = base.putAll writes ∨ (writes = [] ∧ now = fs)
  free : ∀ write ∈ writes, base.lookup write.1 ≠ some .directory

variable {job : Job} {fs base now : FileSystem} {writes : List (Location × ByteArray)}

theorem Reached.keeps (hgrows : Grows fs base) (h : Reached fs base writes now) :
    Keeps fs now (writes.map Prod.fst) := by
  rcases h.state with rfl | ⟨rfl, rfl⟩
  · exact hgrows.keeps.trans (keeps_putAll h.free)
  · exact Keeps.refl _

theorem Reached.leaves (hgrows : Grows fs base) (h : Reached fs base writes now)
    (hwrites : Consistent writes) : Leaves fs now writes := by
  refine ⟨h.keeps hgrows, ?_, ?_⟩
  · intro location content hmem hfile
    rcases h.state with rfl | ⟨_, rfl⟩
    · rw [lookup_putAll_of_not_mem hmem] at hfile
      exact hgrows.file location content hfile
    · exact hfile
  · intro write hwrite
    rcases h.state with rfl | ⟨rfl, _⟩
    · refine lookup_putAll_of_mem (fun hnil => ?_) hwrites hwrite
      exact h.free write hwrite (by rw [hnil]; exact base.lookup_nil)
    · cases hwrite

/-- What a job put somewhere is found by its path. -/
theorem Reached.locate (hgrows : Grows fs base) (h : Reached fs base writes now)
    (hwrites : Consistent writes) {write : Location × ByteArray} (hwrite : write ∈ writes)
    {p : Path} (hplace : base.place p = .ok write.1) :
    now.locate p = .ok (write.1, .file write.2) := by
  have hwritten := (h.leaves hgrows hwrites).written write hwrite
  rcases h.state with rfl | ⟨rfl, _⟩
  · exact locate_of_place hplace (keeps_putAll h.free) hwritten
  · cases hwrite

/-- Jobs make no directories but those of `base`. -/
theorem Reached.directory (hgrows : Grows fs base) (h : Reached fs base writes now)
    {location : Location} (hlookup : now.lookup location = some .directory) :
    base.lookup location = some .directory := by
  rcases h.state with rfl | ⟨_, rfl⟩
  · exact lookup_of_putAll hlookup
  · exact hgrows.keeps.directory hlookup

theorem makeDirectories_of_reached (h : Reached fs base writes now) {p : Path} (hne : p.text ≠ "")
    (hmade : fs.makeDirectories p = (.ok (), base)) :
    now.makeDirectories p = (.ok (), base.putAll writes) := by
  rcases h.state with rfl | ⟨rfl, rfl⟩
  · exact makeDirectories_of_isDirectory
      ((keeps_putAll h.free).isDirectory (isDirectory_of_makeDirectories hmade hne))
  · exact hmade

/-- One job among others: it has its own outcome, and adds what it writes. -/
theorem run_of_reached (hgrows : Grows fs base) (hreached : Reached fs base writes now)
    (hjob : job.Placed fs base) (hapart : job.Apart fs (writes.map Prod.fst)) :
    (job.run now).1 = job.alone fs ∧
      Reached fs base (writes ++ (job.write? fs base).toList) (job.run now).2 := by
  unfold alone run write? at *
  cases hrefusal : job.refusal with
  | some failure => exact ⟨rfl, (List.append_nil writes).symm ▸ hreached⟩
  | none =>
    have hconvert :=
      convert_of_read (read_of_keeps (hreached.keeps hgrows) hjob.found hapart) job.options
    simp only [convertTo, hconvert]
    cases hconversion : fs.convert job.options job.input with
    | error failure => exact ⟨rfl, (List.append_nil writes).symm ▸ hreached⟩
    | ok conversion =>
      obtain ⟨before, name, hp, hname⟩ := hjob.leaf
      have hmade := hjob.directory conversion hrefusal hconversion
      have hne := Path.containingDirectory_text_ne hp hname
      have hnow := makeDirectories_of_reached hreached hne hmade
      have hplace : (base.putAll writes).place job.output = base.place job.output := by
        apply place_of_keeps (keeps_putAll hreached.free) hp hname
          (isDirectory_of_makeDirectories hmade hne)
        intro target htarget hdirectory
        exact ((place_eq_ok_iff base job.output target).mp htarget).2.2.1
          (lookup_of_putAll hdirectory)
      simp only [Except.map, publish, writeFile_of_makeDirectories hmade,
        writeFile_of_makeDirectories hnow, hplace]
      cases htarget : base.place job.output with
      | error fault => exact ⟨rfl, .inl (by simp), by simpa using hreached.free⟩
      | ok target =>
        refine ⟨rfl, .inl (putAll_concat base writes target _).symm, ?_⟩
        intro write hwrite
        rcases List.mem_append.mp hwrite with hwrite | hwrite
        · exact hreached.free write hwrite
        · rw [List.mem_singleton.mp hwrite]
          exact ((place_eq_ok_iff base job.output target).mp htarget).2.2.1

/-- Jobs one after the other that write to no place which a later one reads from: each has its own
outcome, and all of them write. -/
theorem runJobs_of_placed {jobs : List Job} (hgrows : Grows fs base)
    (hreached : Reached fs base writes now) (hjobs : ∀ job ∈ jobs, job.Placed fs base)
    (hbefore : ∀ job ∈ jobs, job.Apart fs (writes.map Prod.fst))
    (hpairs : jobs.Pairwise fun earlier later =>
      ∀ write ∈ earlier.write? fs base, later.Apart fs [write.1]) :
    (runJobs now jobs).1 = jobs.map (fun job => job.alone fs) ∧
      Reached fs base (writes ++ jobs.filterMap fun job => job.write? fs base)
        (runJobs now jobs).2 := by
  -- `Reached` carries over from one job to the next, with what was written so far
  induction jobs generalizing writes now with
  | nil => exact ⟨rfl, by simpa [runJobs] using hreached⟩
  | cons job jobs ih =>
    have hsplit : writes ++ (job :: jobs).filterMap (fun job => job.write? fs base) =
        writes ++ (job.write? fs base).toList ++ jobs.filterMap fun job => job.write? fs base := by
      rw [List.filterMap_cons]
      cases job.write? fs base <;> simp
    rw [hsplit]
    obtain ⟨hjob, hrest⟩ := List.forall_mem_cons.mp hjobs
    obtain ⟨hapart, hapartRest⟩ := List.forall_mem_cons.mp hbefore
    obtain ⟨hlater, hpairsRest⟩ := List.pairwise_cons.mp hpairs
    have hnow : ∀ later ∈ jobs, later.Apart fs
        ((writes ++ (job.write? fs base).toList).map Prod.fst) := by
      intro later hmem location node hlocate hwritten
      rw [List.map_append, List.mem_append] at hwritten
      rcases hwritten with hwritten | hwritten
      · exact hapartRest later hmem location node hlocate hwritten
      · obtain ⟨write, hwrite, rfl⟩ := List.mem_map.mp hwritten
        have hwrite := Option.mem_toList.mp hwrite
        exact hlater later hmem write hwrite write.1 node hlocate List.mem_cons_self
    obtain ⟨hout, hnext⟩ := run_of_reached hgrows hreached hjob hapart
    obtain ⟨houts, hfinal⟩ := ih hnext hrest hnow hpairsRest
    exact ⟨by simp only [runJobs, hout, houts, List.map_cons], hfinal⟩

theorem runJobs_of_reached {targets : List Location} {jobs : List Job} (hgrows : Grows fs base)
    (hreached : Reached fs base writes now) (hjobs : ∀ job ∈ jobs, job.Settled fs base targets)
    (htargets : ∀ write ∈ writes ++ jobs.filterMap (fun job => job.write? fs base),
      write.1 ∈ targets) :
    (runJobs now jobs).1 = jobs.map (fun job => job.alone fs) ∧
      Reached fs base (writes ++ jobs.filterMap fun job => job.write? fs base)
        (runJobs now jobs).2 := by
  refine runJobs_of_placed hgrows hreached (fun job hjob => (hjobs job hjob).toPlaced) ?_ ?_
  · intro job hjob location node hlocate hmem
    obtain ⟨write, hwrite, rfl⟩ := List.mem_map.mp hmem
    exact (hjobs job hjob).apart _ node hlocate (htargets write (List.mem_append_left _ hwrite))
  · refine List.pairwise_of_forall_mem_list fun earlier hearlier later hlater write hwrite => ?_
    intro location node hlocate hmem
    rw [List.mem_singleton] at hmem
    subst hmem
    refine (hjobs later hlater).apart _ node hlocate (htargets write (List.mem_append_right _ ?_))
    exact List.mem_filterMap.mpr ⟨earlier, hearlier, hwrite⟩

/-- A job has success alone just if it puts something somewhere. -/
theorem isOk_alone (hjob : job.Placed fs base) :
    (job.alone fs).isOk = (job.write? fs base).isSome := by
  unfold alone run write?
  cases hrefusal : job.refusal with
  | some failure => rfl
  | none =>
    simp only [convertTo]
    cases hconversion : fs.convert job.options job.input with
    | error failure => rfl
    | ok conversion =>
      simp only [Except.map, publish,
        writeFile_of_makeDirectories (hjob.directory conversion hrefusal hconversion)]
      cases base.place job.output <;> rfl

/-- A job that cannot make its directory has no success. -/
theorem isOk_alone_of_refused {fault : SystemFault} {left : FileSystem}
    (h : fs.makeDirectories job.output.containingDirectory = (.error fault, left)) :
    (job.alone fs).isOk = false := by
  unfold alone run
  cases job.refusal with
  | some failure => rfl
  | none =>
    simp only [convertTo]
    cases fs.convert job.options job.input with
    | error failure => rfl
    | ok conversion =>
      simp only [Except.map, publish, writeFile_of_makeDirectories_error h, Except.isOk,
        Except.toBool]

/-- If the attempt makes nothing, the job leaves the system as it is. -/
theorem run_of_idle {fault : SystemFault}
    (h : fs.makeDirectories job.output.containingDirectory = (.error fault, fs)) :
    (job.run fs).2 = fs := by
  unfold run
  cases job.refusal with
  | some failure => rfl
  | none =>
    simp only [convertTo]
    cases fs.convert job.options job.input with
    | error failure => rfl
    | ok conversion => simp only [Except.map, publish, writeFile_of_makeDirectories_error h]

theorem runJobs_of_idle {jobs : List Job} (h : ∀ job ∈ jobs, (job.run fs).2 = fs) :
    runJobs fs jobs = (jobs.map fun job => job.alone fs, fs) := by
  induction jobs with
  | nil => rfl
  | cons job jobs ih =>
    obtain ⟨hjob, hrest⟩ := List.forall_mem_cons.mp h
    simp only [runJobs, hjob, ih hrest, List.map_cons, alone]

/-- The outcome of a job after others with the outcomes `seen`, told from the one it has alone. -/
def Agrees (job : Job) (fs : FileSystem) (seen : List (Except Failure Artifact))
    (outcome : Except Failure Artifact) : Prop :=
  outcome = job.alone fs ∨
    (job.alone fs = .error (.ofSystem job.output.containingDirectory .alreadyExists) ∧
      outcome = .error (.ofSystem job.output.containingDirectory .notDirectory) ∧
      ".." ∈ names job.output.containingDirectory ∧
      .error (.ofSystem job.output.containingDirectory .alreadyExists) ∈ seen)

theorem Agrees.mono {seen more : List (Except Failure Artifact)} {outcome : Except Failure Artifact}
    (hsub : seen ⊆ more) (h : job.Agrees fs seen outcome) : job.Agrees fs more outcome := by
  rcases h with halone | ⟨halone, hagain, hup, hseen⟩
  · exact .inl halone
  · exact .inr ⟨halone, hagain, hup, hsub hseen⟩

section Refused

variable {left : FileSystem} {directory : Path} {fault : SystemFault}
  {seen : List (Except Failure Artifact)}

/-- One job of several whose common directory cannot be made: the first that
tries leaves what it made. -/
theorem run_of_refused (hfs : fs.Nested) (hdirectory : directory.Orderly)
    (h : fs.makeDirectories directory = (.error fault, left))
    (hfound : fs.locate job.input ≠ .error .notFound)
    (hjob : job.output.containingDirectory = directory)
    (hnow : now = fs ∨ (now = left ∧ .error (.ofSystem directory fault) ∈ seen)) :
    job.Agrees fs seen (job.run now).1 ∧ ((job.run now).2 = fs ∨
      ((job.run now).2 = left ∧ .error (.ofSystem directory fault) ∈
        seen ++ [(job.run now).1])) := by
  subst hjob
  obtain ⟨again, hagain, hcause⟩ := makeDirectories_again hfs hdirectory h
  have hkeeps : Keeps fs now [] := by
    rcases hnow with rfl | ⟨rfl, _⟩
    · exact Keeps.refl _
    · exact (grows_makeDirectories h).keeps
  have hconvert := convert_of_read (read_of_keeps hkeeps hfound (by simp)) job.options
  have hstays : ∀ outcome, now = fs ∨ (now = left ∧
      .error (.ofSystem job.output.containingDirectory fault) ∈ seen ++ [outcome]) :=
    fun outcome => hnow.imp_right fun hnow => ⟨hnow.1, List.mem_append_left [outcome] hnow.2⟩
  unfold Agrees alone run
  cases job.refusal with
  | some failure => exact ⟨.inl rfl, hstays _⟩
  | none =>
    simp only [convertTo, hconvert]
    cases fs.convert job.options job.input with
    | error failure => exact ⟨.inl rfl, hstays _⟩
    | ok conversion =>
      simp only [Except.map, publish, writeFile_of_makeDirectories_error h]
      rcases hnow with rfl | ⟨rfl, hseen⟩
      · rw [writeFile_of_makeDirectories_error h]
        exact ⟨.inl rfl, .inr ⟨rfl, by simp⟩⟩
      · rw [writeFile_of_makeDirectories_error hagain]
        refine ⟨?_, .inr ⟨rfl, List.mem_append_left _ hseen⟩⟩
        rcases hcause with rfl | ⟨rfl, rfl, hup⟩
        · exact .inl rfl
        · exact .inr ⟨rfl, rfl, hup, hseen⟩

theorem runJobs_of_refused {jobs : List Job} (hfs : fs.Nested) (hdirectory : directory.Orderly)
    (h : fs.makeDirectories directory = (.error fault, left))
    (hjobs : ∀ job ∈ jobs, fs.locate job.input ≠ .error .notFound ∧
      job.output.containingDirectory = directory)
    (hnow : now = fs ∨ (now = left ∧ .error (.ofSystem directory fault) ∈ seen)) :
    List.Forall₂ (fun job outcome => job.Agrees fs (seen ++ (runJobs now jobs).1) outcome) jobs
        (runJobs now jobs).1 ∧
      ((runJobs now jobs).2 = fs ∨ (runJobs now jobs).2 = left) := by
  induction jobs generalizing now seen with
  | nil => exact ⟨.nil, hnow.imp_right And.left⟩
  | cons job jobs ih =>
    obtain ⟨⟨hfound, hjob⟩, hrest⟩ := List.forall_mem_cons.mp hjobs
    obtain ⟨hout, hnext⟩ := run_of_refused hfs hdirectory h hfound hjob hnow
    obtain ⟨houts, hfinal⟩ := ih hrest hnext
    rw [List.append_assoc, List.singleton_append] at houts
    exact ⟨.cons (hout.mono (List.subset_append_left _ _)) houts, hfinal⟩

end Refused

end Job

end CollisionMesh
