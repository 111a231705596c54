import CollisionMesh.Proofs.BatchIndependence
import CollisionMesh.Proofs.OptionFaults
import CollisionMesh.Proofs.RunEffects

/-!
# Outputs of a batch that lead to one file

A batch tells outputs apart by their paths. Inputs whose outputs are the same as paths are refused,
all of them, and nothing is written for them. That covers every two outputs that lead to one file if
they go to one directory that is given, or if their paths start alike; two spellings of one file
that the paths do not show are not found.
-/

namespace CollisionMesh.Batch

set_option autoImplicit false

open FileSystem

/-- An element with a property is not the only one, if there is another one at another place. -/
theorem one_lt_length_filter_iff {α : Type} {keep : α → Bool} {xs : List α} {i : Nat} {a : α}
    (ha : xs[i]? = some a) (hkeep : keep a = true) :
    1 < (xs.filter keep).length ↔ ∃ j b, j ≠ i ∧ xs[j]? = some b ∧ keep b = true := by
  obtain ⟨hi, rfl⟩ := List.getElem?_eq_some_iff.mp ha
  have hlength := ((List.getElem_cons_eraseIdx_perm hi).filter keep).length_eq
  rw [List.filter_cons_of_pos hkeep, List.length_cons] at hlength
  rw [← hlength, Nat.lt_add_left_iff_pos, List.length_pos_iff_exists_mem]
  simp only [List.mem_filter, List.mem_eraseIdx_iff_getElem?]
  constructor
  · rintro ⟨b, ⟨j, hne, hb⟩, hkeep'⟩
    exact ⟨j, b, hne, hb, hkeep'⟩
  · rintro ⟨j, b, hne, hb, hkeep'⟩
    exact ⟨b, ⟨j, hne, hb⟩, hkeep'⟩

/-- The failure of an input whose output is that of others; it names them, and the output. -/
def sharing (options : Options) (inputs : List Path) (input : Path) : Failure :=
  .invalidOptions (.outputShared input
    ((owners options inputs (options.outputFor input)).filter fun owner => !owner.same input)
    (options.outputFor input))

/-- Whether the output of an input is the same, as a path, as that of an input at another place. -/
def SharesAt (options : Options) (inputs : List Path) (i : Nat) (input : Path) : Prop :=
  ∃ j other, j ≠ i ∧ inputs[j]? = some other ∧
    (options.outputFor other).same (options.outputFor input) = true

section Refusals

variable {options : Options} {inputs : List Path} {order : List Nat} {i : Nat} {input : Path}

theorem refusal?_eq_ite (options : Options) (hinput : inputs[i]? = some input)
    [Decidable (SharesAt options inputs i input)] :
    refusal? options inputs input =
      if SharesAt options inputs i input then some (sharing options inputs input) else none := by
  have hlength : 1 < (owners options inputs (options.outputFor input)).length ↔
      SharesAt options inputs i input :=
    one_lt_length_filter_iff hinput (Path.same_self _)
  simp only [refusal?, hlength, sharing]

/-- Options are never refused for an output. -/
theorem validate_ne_outputShared (options : Options) (others : List Path) (output : Path) :
    options.validate ≠ .error (.outputShared input others output) := by
  unfold Options.validate
  split
  · simp
  · split
    · simp
    · split <;> simp

/-- Each entry comes of a run of the job of its input. -/
theorem forall₂_run (fs : FileSystem) (options : Options)
    (horder : order.Perm (List.range inputs.length)) :
    List.Forall₂ (fun input entry => entry.input = input ∧
        ∃ now, entry.outcome = ((jobOf options inputs input).run now).1)
      inputs (runInOrder fs options inputs order).1 := by
  have hdone : List.Forall₂ (fun job outcome => ∃ now, outcome = (job.run now).1)
      (order.filterMap fun i => (jobs options inputs)[i]?)
      (runJobs fs (order.filterMap fun i => (jobs options inputs)[i]?)).1 :=
    Job.forall₂_runJobs fun before job after _ => ⟨_, rfl⟩
  exact forall₂_entries horder hdone

/-- The entry of an input is that failure just if another input has the same output. -/
theorem getElem?_eq_sharing_iff (fs : FileSystem) (horder : order.Perm (List.range inputs.length))
    (hinput : inputs[i]? = some input) :
    (runInOrder fs options inputs order).1[i]? =
      some ⟨input, .error (sharing options inputs input)⟩ ↔ SharesAt options inputs i input := by
  classical
  obtain ⟨hlength, hget⟩ := List.forall₂_iff_get.mp (forall₂_run fs options horder)
  obtain ⟨hi, rfl⟩ := List.getElem?_eq_some_iff.mp hinput
  obtain ⟨hentry, now, houtcome⟩ := hget i hi (hlength ▸ hi)
  have hrefusal := refusal?_eq_ite options hinput
  have hfound : (runInOrder fs options inputs order).1[i]? =
      some ⟨inputs[i], ((jobOf options inputs inputs[i]).run now).1⟩ := by
    rw [List.getElem?_eq_getElem (hlength ▸ hi)]
    exact congrArg some (eq_mk hentry houtcome)
  rw [hfound, Job.run, refusal_jobOf, hrefusal]
  by_cases hshared : SharesAt options inputs i inputs[i]
  · rw [if_pos hshared]
    exact iff_of_true rfl hshared
  · rw [if_neg hshared]
    refine iff_of_false (fun hentry => ?_) hshared
    have hfailed := congrArg BatchEntry.outcome (Option.some.inj hentry)
    exact validate_ne_outputShared options _ _
      ((now.convertTo_eq_invalidOptions_iff _ _ _ _).mp hfailed)

end Refusals

section Places

variable {options : Options} {inputs : List Path} {start place : Location} {a c : Path}

/-- Outputs that lead to one place, and start alike or go to one directory that
is given, are the same. -/
theorem same_of_leadsTo (halike : options.outputDirectory = none →
      (options.outputFor c).StartAlike (options.outputFor a))
    (ha : (options.outputFor a).LeadsTo start place)
    (hc : (options.outputFor c).LeadsTo start place) :
    (options.outputFor c).same (options.outputFor a) = true := by
  have hplace := hc.eq_destination.symm.trans ha.eq_destination
  cases hdirectory : options.outputDirectory with
  | none => exact (Path.destination_eq_iff_same (halike hdirectory) start).mp hplace
  | some d =>
    rw [options.outputFor_eq_join, options.outputFor_eq_join, hdirectory] at hplace
    have hname :=
      Path.eq_of_destination_join (options.isName_outputName c) (options.isName_outputName a) hplace
    rw [options.outputFor_eq_join, options.outputFor_eq_join, hdirectory, hname]
    exact Path.same_self _

end Places

/-- Two inputs of a batch whose outputs lead to one file are refused both, and that file
is left as it was, if the outputs go to a directory that is given, or if the outputs that
lead there start alike. -/
theorem runInOrder_refused_of_same_place {fs : FileSystem} {options : Options} {inputs : List Path}
    {order : List Nat} {i j : Nat} {a b : Path} {place : Location}
    (horder : order.Perm (List.range inputs.length)) (hne : i ≠ j) (ha : inputs[i]? = some a)
    (hb : inputs[j]? = some b) (hplace : (options.outputFor a).LeadsTo fs.workingDirectory place)
    (hplace' : (options.outputFor b).LeadsTo fs.workingDirectory place)
    (halike : options.outputDirectory = none → ∀ c ∈ inputs,
      (options.outputFor c).LeadsTo fs.workingDirectory place →
      (options.outputFor c).StartAlike (options.outputFor a)) :
    (runInOrder fs options inputs order).1[i]? = some ⟨a, .error (sharing options inputs a)⟩ ∧
      (runInOrder fs options inputs order).1[j]? = some ⟨b, .error (sharing options inputs b)⟩ ∧
      (∀ content, (runInOrder fs options inputs order).2.lookup place = some (.file content) ↔
        fs.lookup place = some (.file content)) ∧
      runInOrder fs options inputs (List.range inputs.length) = run fs options inputs := by
  have hsame : ∀ c ∈ inputs, (options.outputFor c).LeadsTo fs.workingDirectory place →
      (options.outputFor c).same (options.outputFor a) = true :=
    fun c hc hleads => same_of_leadsTo (fun hnone => halike hnone c hc hleads) hplace hleads
  have hshares : ∀ k c, inputs[k]? = some c →
      (options.outputFor c).LeadsTo fs.workingDirectory place →
      SharesAt options inputs k c := by
    intro k c hc hleads
    have hback : (options.outputFor a).same (options.outputFor c) = true := by
      rw [Path.same_comm]
      exact hsame c (List.mem_of_getElem? hc) hleads
    -- one of the two inputs is at another place than this one
    by_cases hk : i = k
    · exact ⟨j, b, fun hj => hne (hk.trans hj.symm), hb,
        Path.same_trans (hsame b (List.mem_of_getElem? hb) hplace') hback⟩
    · exact ⟨i, a, hk, ha, hback⟩
  refine ⟨(getElem?_eq_sharing_iff fs horder ha).mpr (hshares i a ha hplace),
    (getElem?_eq_sharing_iff fs horder hb).mpr (hshares j b hb hplace'), ?_,
    runInOrder_range fs options inputs⟩
  classical
  obtain ⟨places, hchanges, hplaces⟩ :=
    Job.exists_changes_runJobs fs (order.filterMap fun i => (jobs options inputs)[i]?)
  refine hchanges.lookup_iff fun hmem => ?_
  obtain ⟨job, hjob, hnone, hleads⟩ := hplaces place hmem
  obtain ⟨c, hc, rfl⟩ := mem_jobs_of_order hjob
  obtain ⟨k, hk⟩ := List.mem_iff_getElem?.mp hc
  rw [output_jobOf] at hleads
  rw [refusal_jobOf, refusal?_eq_ite options hk, if_pos (hshares k c hk hleads)] at hnone
  cases hnone

/-- A triangle and two triangles below the working directory, and a place for a generated file. -/
def nestedMeshes : FileSystem :=
  ⟨[(["w"], .directory), (["w", "m"], .directory), (["w", "m", "n"], .directory),
    (["w", "m", "n", "b c.obj"], .file "v 0 0 0\nv 1 0 0\nv 0 1 0\nf 1 2 3\n".toUTF8),
    (["w", "m", "n", "b_c.obj"], .file "v 0 0 0\nv 1 0 0\nv 0 1 0\nf 1 2 3\nf 1 2 3\n".toUTF8),
    (["w", "m", "n", "b_c_surfaces.c"], .file "".toUTF8)], ["w"]⟩

/-- Slashes and dots in the middle make no difference. -/
theorem runInOrder_refused_of_same_place_dots :
    let inputs : List Path := [⟨"m//n/b c.obj"⟩, ⟨"m/n/./b_c.obj"⟩]
    let place : Location := ["w", "m", "n", "b_c_surfaces.c"]
    let ran := runInOrder nestedMeshes Options.default inputs [1, 0]
    ran.1[0]? = some ⟨⟨"m//n/b c.obj"⟩, .error (sharing Options.default inputs ⟨"m//n/b c.obj"⟩)⟩ ∧
      ran.1[1]? =
        some ⟨⟨"m/n/./b_c.obj"⟩, .error (sharing Options.default inputs ⟨"m/n/./b_c.obj"⟩)⟩ ∧
      ∀ content, ran.2.lookup place = some (.file content) ↔
        nestedMeshes.lookup place = some (.file content) := by
  intro inputs place ran
  have hmap : ∀ c ∈ inputs, (nestedMeshes.locate (Options.default.outputFor c)).map Prod.fst =
      .ok place := by
    decide +kernel
  have hplace : ∀ c ∈ inputs, (Options.default.outputFor c).LeadsTo nestedMeshes.workingDirectory
      place :=
    fun c hc => Path.leadsTo_of_map (hmap c hc)
  have hnames : ∀ c ∈ inputs, (Options.default.outputFor c).components =
      [.name "m", .name "n", .name "b_c_surfaces.c"] := by
    decide +kernel
  have hfirst : (⟨"m//n/b c.obj"⟩ : Path) ∈ inputs := List.mem_cons_self
  have hsecond : (⟨"m/n/./b_c.obj"⟩ : Path) ∈ inputs := List.mem_cons_of_mem _ List.mem_cons_self
  have horder : [1, 0].Perm (List.range inputs.length) := by decide
  obtain ⟨ha, hb, hfile, _⟩ := runInOrder_refused_of_same_place horder Nat.zero_ne_one rfl rfl
    (hplace _ hfirst) (hplace _ hsecond) fun _ c hc _ =>
      ⟨[], ["m", "n", "b_c_surfaces.c"], ["m", "n", "b_c_surfaces.c"], hnames c hc, hnames _ hfirst⟩
  exact ⟨ha, hb, hfile⟩

/-- A dot at the start does: both inputs succeed, though their outputs lead to one file. -/
theorem run_ok_of_same_place :
    let inputs : List Path := [⟨"m/n/b c.obj"⟩, ⟨"./m/n/b_c.obj"⟩]
    (∀ c ∈ inputs, (Options.default.outputFor c).LeadsTo nestedMeshes.workingDirectory
        ["w", "m", "n", "b_c_surfaces.c"]) ∧
      (run nestedMeshes Options.default inputs).1.map (fun entry => entry.outcome.isOk) =
        [true, true] := by
  intro inputs
  have hmap : ∀ c ∈ inputs, (nestedMeshes.locate (Options.default.outputFor c)).map Prod.fst =
      .ok ["w", "m", "n", "b_c_surfaces.c"] := by
    decide +kernel
  exact ⟨fun c hc => Path.leadsTo_of_map (hmap c hc), by decide +kernel⟩

end CollisionMesh.Batch
