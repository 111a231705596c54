import CollisionMesh.Batch
import Mathlib.Data.List.Forall2
import Mathlib.Data.List.Perm.Basic

/-!
# Batches in any order

The jobs of a batch may be done in any order of their numbers; the entries are in the order of the
inputs all the same. What holds of each job and its outcome holds of each input and its entry.
-/

namespace CollisionMesh.Batch

set_option autoImplicit false

def jobOf (options : Options) (inputs : List Path) (input : Path) : Job :=
  ⟨input, options.outputFor input, options, refusal? options inputs input⟩

section Fields

variable (options : Options) (inputs : List Path) (input : Path)

@[simp] theorem input_jobOf : (jobOf options inputs input).input = input := rfl

-- Plain `rfl` would compute the path instead of taking the field.
@[simp] theorem output_jobOf : (jobOf options inputs input).output = options.outputFor input := by
  simp only [jobOf]

@[simp] theorem options_jobOf : (jobOf options inputs input).options = options := rfl

@[simp] theorem refusal_jobOf :
    (jobOf options inputs input).refusal = refusal? options inputs input := rfl

end Fields

/-- Converts the inputs in an order of their numbers; the entries are in the order of the inputs. -/
def runInOrder (fs : FileSystem) (options : Options) (inputs : List Path) (order : List Nat) :
    List BatchEntry × FileSystem :=
  let done := runJobs fs (order.filterMap fun i => (jobs options inputs)[i]?)
  (inputs.zipIdx.filterMap fun input =>
    ((order.zip done.1).lookup input.2).map fun outcome => ⟨input.1, outcome⟩, done.2)

theorem jobs_eq_map (options : Options) (inputs : List Path) :
    jobs options inputs = inputs.map (jobOf options inputs) := rfl

section Orders

variable {α β : Type}

theorem filterMap_getElem?_range (xs : List α) :
    ((List.range xs.length).filterMap fun i => xs[i]?) = xs := by
  induction xs with
  | nil => rfl
  | cons x xs ih =>
    rw [List.length_cons, List.range_succ_eq_map, List.filterMap_cons, List.filterMap_map]
    simp only [List.getElem?_cons_zero]
    exact congrArg (List.cons x) ih

/-- Elements taken in any order of their numbers are a rearrangement of them. -/
theorem perm_filterMap_getElem? {xs : List α} {order : List Nat}
    (h : order.Perm (List.range xs.length)) : (order.filterMap fun i => xs[i]?).Perm xs := by
  have hperm := h.filterMap fun i => xs[i]?
  rwa [filterMap_getElem?_range] at hperm

/-- Results of elements in an order are found again by the numbers of the elements. -/
theorem exists_lookup_zip {R : α → β → Prop} {xs : List α} {order : List Nat} {ys : List β}
    (horder : ∀ i ∈ order, i < xs.length)
    (h : List.Forall₂ R (order.filterMap fun i => xs[i]?) ys) {i : Nat} (hi : i ∈ order) :
    ∃ x y, xs[i]? = some x ∧ (order.zip ys).lookup i = some y ∧ R x y := by
  induction order generalizing ys with
  | nil => cases hi
  | cons first order ih =>
    obtain ⟨hfirst, hrest⟩ := List.forall_mem_cons.mp horder
    rw [List.filterMap_cons_some (List.getElem?_eq_getElem hfirst)] at h
    cases h with
    | @cons _ y _ ys hy hys =>
      by_cases heq : i = first
      · subst heq
        exact ⟨_, y, List.getElem?_eq_getElem hfirst, by simp, hy⟩
      · have hmem := (List.mem_cons.mp hi).resolve_left heq
        obtain ⟨x, z, hx, hz, hR⟩ := ih hrest hys hmem
        refine ⟨x, z, hx, ?_, hR⟩
        have hbeq : (i == first) = false := beq_eq_false_iff_ne.mpr heq
        rw [List.zip_cons_cons, List.lookup_cons, hbeq]
        exact hz

theorem exists_lookup_of_mem {order : List Nat} {ys : List β} (horder : order.Nodup)
    (hlength : order.length = ys.length) {y : β} (h : y ∈ ys) :
    ∃ i ∈ order, (order.zip ys).lookup i = some y := by
  induction order generalizing ys with
  | nil =>
    rw [List.length_eq_zero_iff.mp hlength.symm] at h
    cases h
  | cons first order ih =>
    obtain ⟨hfirst, hrest⟩ := List.nodup_cons.mp horder
    cases ys with
    | nil => cases h
    | cons z ys =>
      rcases List.mem_cons.mp h with rfl | hmem
      · exact ⟨first, List.mem_cons_self, by simp⟩
      · obtain ⟨i, hi, hlookup⟩ := ih hrest (Nat.succ.inj hlength) hmem
        have hbeq : (i == first) = false := by
          refine beq_eq_false_iff_ne.mpr ?_
          rintro rfl
          exact hfirst hi
        refine ⟨i, List.mem_cons_of_mem first hi, ?_⟩
        rw [List.zip_cons_cons, List.lookup_cons, hbeq]
        exact hlookup

theorem forall₂_filterMap {R : α → β → Prop} {f : α → Option β} {xs : List α}
    (h : ∀ x ∈ xs, ∃ y, f x = some y ∧ R x y) : List.Forall₂ R xs (xs.filterMap f) := by
  induction xs with
  | nil => exact .nil
  | cons x xs ih =>
    obtain ⟨⟨y, hy, hR⟩, hrest⟩ := List.forall_mem_cons.mp h
    rw [List.filterMap_cons_some hy]
    exact .cons hR (ih hrest)

/-- Results of elements in an order stand with the elements that they are of, in the
order of the elements. -/
theorem forall₂_lookup {γ : Type} {R : α → β → Prop} (f : α → β → γ) {xs : List α}
    {order : List Nat} {ys : List β} (horder : order.Perm (List.range xs.length))
    (h : List.Forall₂ R (order.filterMap fun i => xs[i]?) ys) :
    List.Forall₂ (fun x z => ∃ y, R x y ∧ z = f x y) xs
      (xs.zipIdx.filterMap fun x => ((order.zip ys).lookup x.2).map (f x.1)) := by
  have hbound : ∀ i ∈ order, i < xs.length := fun i hi => List.mem_range.mp (horder.mem_iff.mp hi)
  have hnumbered : List.Forall₂ (fun x z => ∃ y, R x.1 y ∧ z = f x.1 y) xs.zipIdx
      (xs.zipIdx.filterMap fun x => ((order.zip ys).lookup x.2).map (f x.1)) := by
    apply forall₂_filterMap
    intro x hx
    obtain ⟨_, hi, hget⟩ := List.mem_zipIdx hx
    have hmem : x.2 ∈ order := horder.mem_iff.mpr (List.mem_range.mpr (by omega))
    obtain ⟨found, y, hfound, hlookup, hR⟩ := exists_lookup_zip hbound h hmem
    rw [List.getElem?_eq_getElem (by omega)] at hfound
    cases hfound
    simp only [Nat.sub_zero] at hget
    exact ⟨f x.1 y, by rw [hlookup]; rfl, y, hget ▸ hR, rfl⟩
  have hmap : List.Forall₂ (fun x z => ∃ y, R x y ∧ z = f x y) (xs.zipIdx.map Prod.fst)
      (xs.zipIdx.filterMap fun x => ((order.zip ys).lookup x.2).map (f x.1)) :=
    List.forall₂_map_left_iff.mpr hnumbered
  rwa [List.zipIdx_map_fst] at hmap

/-- In their own order, results are found by their numbers where they stand. -/
theorem filterMap_lookup_zip {γ : Type} (f : α → β → γ) (start : Nat) {xs : List α} {ys : List β}
    (h : xs.length = ys.length) :
    ((xs.zipIdx start).filterMap fun x =>
        (((List.range' start ys.length).zip ys).lookup x.2).map (f x.1)) =
      (xs.zip ys).map fun x => f x.1 x.2 := by
  induction xs generalizing start ys with
  | nil => rfl
  | cons x xs ih =>
    cases ys with
    | nil => cases h
    | cons y ys =>
      have hlater : ∀ z ∈ xs.zipIdx (start + 1),
          (((List.range' start (y :: ys).length).zip (y :: ys)).lookup z.2).map (f z.1) =
            (((List.range' (start + 1) ys.length).zip ys).lookup z.2).map (f z.1) := by
        intro z hz
        have hne : (z.2 == start) = false := by
          have := (List.mem_zipIdx hz).1
          exact beq_eq_false_iff_ne.mpr (by omega)
        rw [List.length_cons, List.range'_succ, List.zip_cons_cons, List.lookup_cons, hne]
      rw [List.zipIdx_cons, List.filterMap_cons, List.filterMap_congr hlater,
        ih (start + 1) (Nat.succ.inj h), List.length_cons, List.range'_succ, List.zip_cons_cons,
        List.zip_cons_cons, List.map_cons]
      simp

end Orders

section Outcomes

/-- Does jobs in an order of their numbers; the outcomes are in the order of the jobs. -/
def runJobsInOrder (fs : FileSystem) (jobs : List Job) (order : List Nat) :
    List (Except Failure Artifact) × FileSystem :=
  let done := runJobs fs (order.filterMap fun i => jobs[i]?)
  (jobs.zipIdx.filterMap fun job => (order.zip done.1).lookup job.2, done.2)

theorem runJobsInOrder_range (fs : FileSystem) (jobs : List Job) :
    runJobsInOrder fs jobs (List.range jobs.length) = runJobs fs jobs := by
  have hlength : jobs.length = (runJobs fs jobs).1.length := (length_runJobs fs jobs).symm
  have hfound := filterMap_lookup_zip (fun _ outcome => outcome) 0 hlength
  simp only [Option.map_id'] at hfound
  unfold runJobsInOrder
  rw [filterMap_getElem?_range, List.range_eq_range', hlength]
  simp only
  rw [hfound]
  exact Prod.ext (List.map_snd_zip (Nat.le_of_eq hlength.symm)) rfl

/-- What holds of each job and its outcome as they are done holds of them in
the order of the jobs. -/
theorem forall₂_outcomes {fs : FileSystem} {jobs : List Job} {order : List Nat}
    {R : Job → Except Failure Artifact → Prop} (horder : order.Perm (List.range jobs.length))
    (h : List.Forall₂ R (order.filterMap fun i => jobs[i]?)
      (runJobs fs (order.filterMap fun i => jobs[i]?)).1) :
    List.Forall₂ R jobs (runJobsInOrder fs jobs order).1 := by
  have hfound := forall₂_lookup (fun _ outcome => outcome) horder h
  simp only [Option.map_id'] at hfound
  refine hfound.imp ?_
  rintro job _ ⟨outcome, hR, rfl⟩
  exact hR

/-- Jobs that have an outcome each whenever they are done have it in the order of the jobs. -/
theorem runJobsInOrder_of_map {fs : FileSystem} {jobs : List Job} {order : List Nat}
    {f : Job → Except Failure Artifact} (horder : order.Perm (List.range jobs.length))
    (h : (runJobs fs (order.filterMap fun i => jobs[i]?)).1 =
      (order.filterMap fun i => jobs[i]?).map f) :
    (runJobsInOrder fs jobs order).1 = jobs.map f := by
  have hdone : List.Forall₂ (fun job outcome => f job = outcome) (order.filterMap fun i => jobs[i]?)
      (runJobs fs (order.filterMap fun i => jobs[i]?)).1 := by
    rw [h, List.forall₂_map_right_iff, List.forall₂_same]
    exact fun _ _ => rfl
  have houtcomes := List.forall₂_map_left_iff.mpr (forall₂_outcomes horder hdone)
  rw [List.forall₂_eq_eq_eq] at houtcomes
  exact houtcomes.symm

end Outcomes

section Entries

variable {options : Options} {inputs : List Path} {order : List Nat}

/-- The order of the inputs is one of the orders. -/
theorem runInOrder_range (fs : FileSystem) (options : Options) (inputs : List Path) :
    runInOrder fs options inputs (List.range inputs.length) = run fs options inputs := by
  have hlength : (jobs options inputs).length = inputs.length := List.length_map _
  have hjobs : ((List.range inputs.length).filterMap fun i => (jobs options inputs)[i]?) =
      jobs options inputs := by
    rw [← hlength, filterMap_getElem?_range]
  have houtcomes : (runJobs fs (jobs options inputs)).1.length = inputs.length :=
    (length_runJobs _ _).trans hlength
  unfold runInOrder run
  rw [hjobs, ← houtcomes, List.range_eq_range']
  simp only
  rw [filterMap_lookup_zip BatchEntry.mk 0 houtcomes.symm]

theorem forall₂_entries {fs : FileSystem} {R : Job → Except Failure Artifact → Prop}
    (horder : order.Perm (List.range inputs.length))
    (h : List.Forall₂ R (order.filterMap fun i => (jobs options inputs)[i]?)
      (runJobs fs (order.filterMap fun i => (jobs options inputs)[i]?)).1) :
    List.Forall₂
      (fun input entry => entry.input = input ∧ R (jobOf options inputs input) entry.outcome)
      inputs (runInOrder fs options inputs order).1 := by
  have hjobs : (order.filterMap fun i => (jobs options inputs)[i]?) =
      (order.filterMap fun i => inputs[i]?).map (jobOf options inputs) := by
    simp only [List.map_filterMap, jobs_eq_map, List.getElem?_map]
  simp only [runInOrder]
  generalize (runJobs fs (order.filterMap fun i => (jobs options inputs)[i]?)).1 = outcomes at h ⊢
  rw [hjobs, List.forall₂_map_left_iff] at h
  refine (forall₂_lookup BatchEntry.mk horder h).imp ?_
  rintro input _ ⟨outcome, hR, rfl⟩
  exact ⟨rfl, hR⟩

theorem eq_mk {entry : BatchEntry} {input : Path} {outcome : Except Failure Artifact}
    (hinput : entry.input = input) (houtcome : entry.outcome = outcome) :
    entry = ⟨input, outcome⟩ := by
  rw [← hinput, ← houtcome]

theorem forall_of_forall₂ {R : Path → Except Failure Artifact → Prop} {entries : List BatchEntry}
    (h : List.Forall₂ (fun input entry => entry.input = input ∧ R input entry.outcome)
      inputs entries) :
    entries.map BatchEntry.input = inputs ∧ ∀ entry ∈ entries, R entry.input entry.outcome := by
  induction h with
  | nil => exact ⟨rfl, by simp⟩
  | cons hentry _ ih =>
    obtain ⟨rfl, hR⟩ := hentry
    exact ⟨by rw [List.map_cons, ih.1], List.forall_mem_cons.mpr ⟨hR, ih.2⟩⟩

/-- There is one entry for each input, in the order of the inputs, with the outcome of its job. -/
theorem entries_of_outcomes {fs : FileSystem} {R : Job → Except Failure Artifact → Prop}
    (horder : order.Perm (List.range inputs.length))
    (h : List.Forall₂ R (order.filterMap fun i => (jobs options inputs)[i]?)
      (runJobs fs (order.filterMap fun i => (jobs options inputs)[i]?)).1) :
    (runInOrder fs options inputs order).1.map BatchEntry.input = inputs ∧
      ∀ entry ∈ (runInOrder fs options inputs order).1,
        R (jobOf options inputs entry.input) entry.outcome :=
  forall_of_forall₂ (R := fun input outcome => R (jobOf options inputs input) outcome)
    (forall₂_entries horder h)

/-- No outcome is lost among the entries. -/
theorem exists_entry_of_mem {fs : FileSystem} {outcome : Except Failure Artifact}
    (horder : order.Perm (List.range inputs.length))
    (h : outcome ∈ (runJobs fs (order.filterMap fun i => (jobs options inputs)[i]?)).1) :
    ∃ entry ∈ (runInOrder fs options inputs order).1, entry.outcome = outcome := by
  have hlength : (jobs options inputs).length = inputs.length := List.length_map _
  have hjobs := (perm_filterMap_getElem? (hlength ▸ horder)).length_eq
  have hcount : order.length =
      (runJobs fs (order.filterMap fun i => (jobs options inputs)[i]?)).1.length := by
    rw [length_runJobs, hjobs, hlength, horder.length_eq, List.length_range]
  obtain ⟨i, hi, hlookup⟩ := exists_lookup_of_mem (horder.nodup_iff.mpr List.nodup_range) hcount h
  have hbound : i < inputs.length := List.mem_range.mp (horder.mem_iff.mp hi)
  refine ⟨⟨inputs[i], outcome⟩, List.mem_filterMap.mpr ⟨(inputs[i], i), ?_, ?_⟩, rfl⟩
  · rw [List.mk_mem_zipIdx_iff_getElem?, List.getElem?_eq_getElem hbound]
  · rw [hlookup]
    rfl

end Entries

end CollisionMesh.Batch
