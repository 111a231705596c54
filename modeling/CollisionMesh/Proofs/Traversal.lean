import Mathlib.Data.List.Forall2

/-!
# Traversals that may fail

A list that is walked from left to right by a function with outcomes of its own: the first
failure is the outcome of the walk, and without failure the results stand in the order of
the list. A walk over keys with values that sets one part for each key leaves in every part
what stands under its key.
-/

namespace CollisionMesh

set_option autoImplicit false

variable {ε α β : Type}

/-- The failure of an outcome, if it is one. -/
def failure? {γ : Type} : Except ε γ → Option ε
  | .ok _ => none
  | .error failure => some failure

@[simp] theorem failure?_ok (value : α) : failure? (.ok value : Except ε α) = none := rfl

@[simp] theorem failure?_error (failure : ε) :
    failure? (.error failure : Except ε α) = some failure := rfl

theorem failure?_eq_some_iff (outcome : Except ε α) (failure : ε) :
    failure? outcome = some failure ↔ outcome = .error failure := by
  cases outcome <;> simp

theorem failure?_eq_none_iff (outcome : Except ε α) :
    failure? outcome = none ↔ ∃ value, outcome = .ok value := by
  cases outcome <;> simp

theorem failure?_bind (outcome : Except ε α) (next : α → Except ε β) :
    failure? (outcome >>= next) =
      match outcome with
      | .error failure => some failure
      | .ok value => failure? (next value) := by
  cases outcome <;> rfl

theorem bind_eq_ok_iff (outcome : Except ε α) (next : α → Except ε β) (result : β) :
    (outcome >>= next) = .ok result ↔ ∃ value, outcome = .ok value ∧ next value = .ok result := by
  cases outcome with
  | ok value =>
    constructor
    · exact fun h => ⟨value, rfl, h⟩
    · rintro ⟨_, hv, h⟩
      cases hv
      exact h
  | error failure =>
    constructor
    · intro h
      cases h
    · rintro ⟨_, hv, _⟩
      cases hv

theorem exists_of_map_eq_ok {outcome : Except ε α} {f : α → β} {result : β}
    (h : outcome.map f = .ok result) :
    ∃ value, outcome = .ok value ∧ f value = result := by
  cases outcome with
  | error failure => cases h
  | ok value => exact ⟨value, rfl, Except.ok.inj h⟩

theorem toOption_eq_some_iff {outcome : Except ε α} {value : α} :
    outcome.toOption = some value ↔ outcome = .ok value := by
  cases outcome with
  | error failure => exact ⟨nofun, nofun⟩
  | ok found =>
    exact ⟨fun h => congrArg Except.ok (Option.some.inj h),
      fun h => congrArg some (Except.ok.inj h)⟩

theorem eq_ok_of_mapError_eq_ok {outcome : Except ε α} {f : ε → β} {result : α}
    (h : outcome.mapError f = .ok result) : outcome = .ok result := by
  cases outcome with
  | error failure => cases h
  | ok value => exact congrArg Except.ok (Except.ok.inj h)

theorem bind_eq_error_iff (outcome : Except ε α) (next : α → Except ε β) (failure : ε) :
    (outcome >>= next) = .error failure ↔
      outcome = .error failure ∨ ∃ value, outcome = .ok value ∧ next value = .error failure := by
  cases outcome with
  | ok value =>
    constructor
    · exact fun h => .inr ⟨value, rfl, h⟩
    · rintro (h | ⟨_, hv, h⟩)
      · cases h
      · cases hv
        exact h
  | error other =>
    constructor
    · intro h
      cases h
      exact .inl rfl
    · rintro (h | ⟨_, hv, _⟩)
      · cases h
        rfl
      · cases hv

theorem mapM_ok_iff (f : α → Except ε β) (xs : List α) (ys : List β) :
    xs.mapM f = .ok ys ↔ List.Forall₂ (fun x y => f x = .ok y) xs ys := by
  induction xs generalizing ys with
  | nil => cases ys <;> simp [pure, Except.pure]
  | cons x xs ih =>
    rw [List.mapM_cons]
    simp only [bind_eq_ok_iff, ih]
    constructor
    · rintro ⟨y, hy, rest, hrest, h⟩
      cases h
      exact .cons hy hrest
    · intro h
      cases h with
      | cons hy hrest => exact ⟨_, hy, _, hrest, rfl⟩

/-- What every step keeps, a walk that succeeds keeps. -/
theorem foldlM_invariant {P : β → Prop} {f : β → α → Except ε β} {xs : List α} {start result : β}
    (hstep : ∀ x ∈ xs, ∀ state next, P state → f state x = .ok next → P next) (hstart : P start)
    (h : xs.foldlM f start = .ok result) : P result := by
  induction xs generalizing start with
  | nil =>
    cases h
    exact hstart
  | cons x xs ih =>
    obtain ⟨next, hnext, h⟩ := (bind_eq_ok_iff _ _ _).mp h
    obtain ⟨hfirst, hrest⟩ := List.forall_mem_cons.mp hstep
    exact ih hrest (hfirst start next hstart hnext) h

/-- A walk that succeeds has taken every step. -/
theorem exists_step_of_foldlM {f : β → α → Except ε β} {xs : List α} {start result : β}
    (h : xs.foldlM f start = .ok result) : ∀ x ∈ xs, ∃ state next, f state x = .ok next := by
  induction xs generalizing start with
  | nil => simp
  | cons x xs ih =>
    obtain ⟨next, hnext, h⟩ := (bind_eq_ok_iff _ _ _).mp h
    exact List.forall_mem_cons.mpr ⟨⟨start, next, hnext⟩, ih h⟩

/-- A walk succeeds if every step can be taken, whatever the others made. -/
theorem exists_foldlM_eq_ok {f : β → α → Except ε β} {xs : List α}
    (h : ∀ x ∈ xs, ∀ state, ∃ next, f state x = .ok next) (start : β) :
    ∃ result, xs.foldlM f start = .ok result := by
  induction xs generalizing start with
  | nil => exact ⟨start, rfl⟩
  | cons x xs ih =>
    obtain ⟨hfirst, hrest⟩ := List.forall_mem_cons.mp h
    obtain ⟨next, hnext⟩ := hfirst start
    obtain ⟨result, hresult⟩ := ih hrest next
    exact ⟨result, (bind_eq_ok_iff _ _ _).mpr ⟨next, hnext, hresult⟩⟩

theorem mem_of_lookup {κ : Type} [BEq κ] [LawfulBEq κ] {entries : List (κ × β)} {key : κ}
    {value : β} (h : entries.lookup key = some value) : (key, value) ∈ entries := by
  obtain ⟨before, after, rfl, _⟩ := List.lookup_eq_some_iff.mp h
  exact List.mem_append_right before List.mem_cons_self

theorem lookup_of_mem {κ : Type} [BEq κ] [LawfulBEq κ] {entries : List (κ × β)}
    (hkeys : (entries.map Prod.fst).Nodup) {entry : κ × β} (h : entry ∈ entries) :
    entries.lookup entry.1 = some entry.2 := by
  induction entries with
  | nil => cases h
  | cons first entries ih =>
    obtain ⟨habsent, hrest⟩ := List.nodup_cons.mp hkeys
    rcases List.mem_cons.mp h with rfl | hmem
    · exact List.lookup_cons_self
    · have hother : entry.1 ≠ first.1 := fun heq => habsent (heq ▸ List.mem_map_of_mem hmem)
      have hbeq : (entry.1 == first.1) = false := beq_eq_false_iff_ne.mpr hother
      rw [List.lookup_cons, hbeq]
      exact ih hrest hmem

theorem lookup_of_not_mem {κ : Type} [BEq κ] [LawfulBEq κ] {entries : List (κ × β)} {key : κ}
    (h : key ∉ entries.map Prod.fst) : entries.lookup key = none := by
  rw [List.lookup_eq_none_iff]
  intro entry hmem
  refine bne_iff_ne.mpr fun hsame => h (List.mem_map.mpr ⟨entry, hmem, hsame.symm⟩)

/-- What a walk over keys with values makes of a part that one key alone sets. -/
theorem part_of_foldlM {κ : Type} (part : α → κ) (P : β → κ → Prop)
    {f : α → String × β → Except ε α} {key : String} {xs : List (String × β)} {start result : α}
    (hkey : ∀ value state next, f state (key, value) = .ok next → P value (part next))
    (hother : ∀ x state next, x.1 ≠ key → f state x = .ok next → part next = part state)
    (hkeys : (xs.map Prod.fst).Nodup) (h : xs.foldlM f start = .ok result) :
    (∀ value, xs.lookup key = some value → P value (part result)) ∧
      (xs.lookup key = none → part result = part start) := by
  induction xs generalizing start with
  | nil =>
    cases h
    exact ⟨nofun, fun _ => rfl⟩
  | cons x xs ih =>
    obtain ⟨next, hnext, h⟩ := (bind_eq_ok_iff _ _ _).mp h
    obtain ⟨hfirst, hrest⟩ := List.nodup_cons.mp hkeys
    obtain ⟨hsome, hnone⟩ := ih hrest h
    rw [List.lookup_cons]
    by_cases heq : x.1 = key
    · have hbeq : (key == x.1) = true := beq_iff_eq.mpr heq.symm
      -- no later step sets the part again
      have habsent : xs.lookup key = none := lookup_of_not_mem (heq ▸ hfirst)
      rw [hbeq, hnone habsent]
      subst heq
      refine ⟨fun value hvalue => ?_, nofun⟩
      cases hvalue
      exact hkey x.2 start next hnext
    · have hbeq : (key == x.1) = false := beq_eq_false_iff_ne.mpr (Ne.symm heq)
      rw [hbeq, ← hother x start next heq hnext]
      exact ⟨hsome, hnone⟩

/-- The first failure in the order of the list is the failure of the walk. -/
theorem failure?_mapM (f : α → Except ε β) (xs : List α) :
    failure? (xs.mapM f) = xs.findSome? fun x => failure? (f x) := by
  induction xs with
  | nil => rfl
  | cons x xs ih =>
    rw [List.mapM_cons, failure?_bind, List.findSome?_cons, ← ih]
    cases f x with
    | error failure => rfl
    | ok value => cases xs.mapM f <;> rfl

theorem exists_mapM_iff (f : α → Except ε β) (xs : List α) :
    (∃ ys, xs.mapM f = .ok ys) ↔ ∀ x ∈ xs, ∃ y, f x = .ok y := by
  simp only [← failure?_eq_none_iff, failure?_mapM, List.findSome?_eq_none_iff]

/-- A walk whose steps are optional values with a failure for each that is absent. -/
theorem mapM_eq_of_elim {f : α → Except ε β} {value? : α → Option β} {fault : α → ε}
    (hf : ∀ x, f x = (value? x).elim (.error (fault x)) .ok) (xs : List α) :
    xs.mapM f =
      (xs.find? fun x => (value? x).isNone).elim (.ok (xs.filterMap value?)) fun x =>
        .error (fault x) := by
  induction xs with
  | nil => rfl
  | cons x xs ih =>
    rw [List.mapM_cons, ih, hf, List.find?_cons, List.filterMap_cons]
    cases value? x with
    | none => rfl
    | some y => cases xs.find? fun x => (value? x).isNone <;> rfl

/-- What is said of every failure of an outcome. -/
def FailsAs (P : ε → Prop) (outcome : Except ε α) : Prop :=
  ∀ failure, outcome = .error failure → P failure

section FailsAs

variable {P : ε → Prop}

theorem failsAs_ok (value : α) : FailsAs P (.ok value : Except ε α) := by
  rintro _ ⟨⟩

theorem failsAs_error {failure : ε} (h : P failure) : FailsAs P (.error failure : Except ε α) := by
  rintro _ ⟨⟩
  exact h

theorem FailsAs.bind {outcome : Except ε α} {next : α → Except ε β} (h : FailsAs P outcome)
    (hnext : ∀ value, FailsAs P (next value)) : FailsAs P (outcome >>= next) := by
  intro failure hfailure
  rcases (bind_eq_error_iff _ _ _).mp hfailure with hfirst | ⟨value, _, hlater⟩
  · exact h failure hfirst
  · exact hnext value failure hlater

theorem failsAs_foldlM {f : β → α → Except ε β} (h : ∀ state x, FailsAs P (f state x)) (xs : List α)
    (start : β) : FailsAs P (xs.foldlM f start) := by
  induction xs generalizing start with
  | nil => exact failsAs_ok start
  | cons x xs ih => exact (h start x).bind fun next => ih next

theorem failsAs_mapM {f : α → Except ε β} (h : ∀ x, FailsAs P (f x)) (xs : List α) :
    FailsAs P (xs.mapM f) := by
  intro failure hfailure
  rw [← failure?_eq_some_iff, failure?_mapM] at hfailure
  obtain ⟨x, _, hx⟩ := List.exists_of_findSome?_eq_some hfailure
  exact h x failure ((failure?_eq_some_iff _ _).mp hx)

end FailsAs

end CollisionMesh
