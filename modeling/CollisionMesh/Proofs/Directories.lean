import CollisionMesh.Proofs.Trees

/-!
# Making directories

`Making` says how directories come to be made, case by case, and everything about `makeDirectories`
is an induction on it. Made directories are the only change. A directory that is there is left
alone, one that was made is there, and a second attempt after a failed one changes nothing and fails
again: as the first did, or, if two dots lead out of a directory that the first attempt made,
because a file is on the way.
-/

namespace CollisionMesh.FileSystem

set_option autoImplicit false

variable {fs left : FileSystem} {p q : Path}

theorem makeDirectory_of_locateParent {location : Location} {name : String}
    (h : fs.locateParent p = .ok (location, some name)) (hdot : name ≠ ".") (hdots : name ≠ "..") :
    fs.makeDirectory p = fs.step location name >>= fun target =>
      match fs.lookup target with
      | some _ => .error .alreadyExists
      | none => .ok (fs.insert target .directory) := by
  have hproper : ¬(name = "." ∨ name = "..") := by simp [hdot, hdots]
  rw [makeDirectory, h]
  change (if name = "." ∨ name = ".." then _ else _) = _
  exact if_neg hproper

theorem makeDirectory_of_dots {location : Location} {name : String}
    (h : fs.locateParent p = .ok (location, some name)) (hdots : name = "." ∨ name = "..") :
    fs.makeDirectory p = .error .alreadyExists := by
  rw [makeDirectory, h]
  change (if name = "." ∨ name = ".." then _ else _) = _
  rw [if_pos hdots]

theorem makeDirectory_of_locateParent_error {fault : SystemFault}
    (h : fs.locateParent p = .error fault) : fs.makeDirectory p = .error fault := by
  rw [makeDirectory, h]
  rfl

/-- A directory is made below another one, by a proper name, where nothing stands. -/
theorem makeDirectory_eq_ok {made : FileSystem} (h : fs.makeDirectory p = .ok made) :
    ∃ location name, fs.locateParent p = .ok (location, some name) ∧
      fs.step location name = .ok (location ++ [name]) ∧ fs.lookup (location ++ [name]) = none ∧
      made = fs.insert (location ++ [name]) .directory := by
  cases hlocate : fs.locateParent p with
  | error fault =>
    rw [makeDirectory_of_locateParent_error hlocate] at h
    cases h
  | ok found =>
    obtain ⟨location, name?⟩ := found
    cases name? with
    | none =>
      rw [makeDirectory, hlocate] at h
      cases h
    | some name =>
      by_cases hdots : name = "." ∨ name = ".."
      · rw [makeDirectory_of_dots hlocate hdots] at h
        cases h
      · rw [not_or] at hdots
        rw [makeDirectory_of_locateParent hlocate hdots.1 hdots.2, bind_eq_ok_iff] at h
        obtain ⟨target, hstep, h⟩ := h
        have htarget := eq_append_of_step_eq_ok hstep hdots.1 hdots.2
        split at h
        · cases h
        · rename_i hlookup
          cases h
          rw [htarget] at hstep hlookup ⊢
          exact ⟨location, name, rfl, hstep, hlookup, rfl⟩

theorem makeDirectory_of_isDirectory (h : fs.isDirectory p = true) :
    fs.makeDirectory p = .error .alreadyExists := by
  obtain ⟨hcheck, finish, hwalk, hlookup⟩ := (isDirectory_iff fs p).mp h
  rcases List.eq_nil_or_concat (names p) with hnames | ⟨init, name, hnames⟩
  · have hlocate : fs.locateParent p = .ok (finish, none) := by
      rw [locateParent_eq_ok_iff, hnames]
      rw [hnames] at hwalk
      exact ⟨hcheck, hwalk, hlookup, rfl⟩
    rw [makeDirectory, hlocate]
    rfl
  · rw [List.concat_eq_append] at hnames
    rw [hnames, walk_concat, bind_eq_ok_iff] at hwalk
    obtain ⟨location, hwalk, hstep⟩ := hwalk
    have hlocate : fs.locateParent p = .ok (location, some name) := by
      rw [locateParent_eq_ok_iff, hnames, List.dropLast_concat, List.getLast?_concat]
      exact ⟨hcheck, hwalk, lookup_of_step_eq_ok hstep, rfl⟩
    by_cases hdots : name = "." ∨ name = ".."
    · exact makeDirectory_of_dots hlocate hdots
    · rw [not_or] at hdots
      rw [makeDirectory_of_locateParent hlocate hdots.1 hdots.2, hstep]
      simp [bind, Except.bind, hlookup]

theorem isDirectory_of_makeDirectory {made : FileSystem} (h : fs.makeDirectory p = .ok made) :
    made.isDirectory p = true := by
  obtain ⟨location, name, hlocate, hstep, hlookup, rfl⟩ := makeDirectory_eq_ok h
  have hkeeps := Keeps.of_insert_directory hlookup
  have hnow := hkeeps.locateParent_of_ok hlocate
  obtain ⟨hcheck, _⟩ := (locateParent_eq_ok_iff _ p location (some name)).mp hnow
  rw [isDirectory_iff, walk_of_locateParent hnow, hkeeps.step (by simp [hstep]), hstep]
  exact ⟨hcheck, _, rfl, lookup_insert_self fs (by simp) _⟩

/-- How a directory and those above it are made, from the system `fs` on. -/
inductive Making (fs : FileSystem) : Path → Except SystemFault Unit → FileSystem → Prop where
  | empty {p : Path} (h : p.text = "") : Making fs p (.ok ()) fs
  | present {p : Path} (h : fs.isDirectory p = true) : Making fs p (.ok ()) fs
  | made {p : Path} {made : FileSystem} (hne : p.text ≠ "") (h : fs.makeDirectory p = .ok made) :
      Making fs p (.ok ()) made
  | refused {p : Path} {fault : SystemFault} (hne : p.text ≠ "") : Making fs p (.error fault) fs
  | aboveRefused {p q : Path} {fault : SystemFault} {left : FileSystem} (hne : p.text ≠ "")
      (missing : fs.makeDirectory p = .error .notFound) (parent : p.parent? = some q)
      (above : Making fs q (.error fault) left) : Making fs p (.error fault) left
  | aboveMade {p q : Path} {left made : FileSystem} (hne : p.text ≠ "")
      (missing : fs.makeDirectory p = .error .notFound) (parent : p.parent? = some q)
      (above : Making fs q (.ok ()) left) (h : left.makeDirectory p = .ok made) :
      Making fs p (.ok ()) made
  | abovePresent {p q : Path} {left : FileSystem} (hne : p.text ≠ "")
      (missing : fs.makeDirectory p = .error .notFound) (parent : p.parent? = some q)
      (above : Making fs q (.ok ()) left) (h : left.isDirectory p = true) :
      Making fs p (.ok ()) left
  | refusedBelow {p q : Path} {fault : SystemFault} {left : FileSystem} (hne : p.text ≠ "")
      (missing : fs.makeDirectory p = .error .notFound) (parent : p.parent? = some q)
      (above : Making fs q (.ok ()) left) (h : left.makeDirectory p = .error fault)
      (absent : left.isDirectory p = false) : Making fs p (.error fault) left

theorem making_makeDirectoriesUpTo (depth : Nat) (fs : FileSystem) (p : Path) :
    Making fs p (makeDirectoriesUpTo depth fs p).1 (makeDirectoriesUpTo depth fs p).2 := by
  induction depth generalizing p with
  | zero =>
    unfold makeDirectoriesUpTo
    split
    · rename_i hempty
      exact .empty (String.isEmpty_iff.mp hempty)
    · rename_i hne
      rw [String.isEmpty_iff] at hne
      split
      · rename_i hmade
        exact .made hne hmade
      · exact .refused hne
      · dsimp only
        split
        · rename_i hpresent
          exact .present hpresent
        · exact .refused hne
  | succ depth ih =>
    unfold makeDirectoriesUpTo
    split
    · rename_i hempty
      exact .empty (String.isEmpty_iff.mp hempty)
    · rename_i hne
      rw [String.isEmpty_iff] at hne
      split
      · rename_i hmade
        exact .made hne hmade
      · rename_i hmissing
        cases hparent : p.parent? with
        | none => exact .refused hne
        | some parent =>
          have habove := ih parent
          simp only
          split
          · rename_i hfailed
            rw [hfailed] at habove
            exact .aboveRefused hne hmissing hparent habove
          · rename_i hdone
            rw [hdone] at habove
            split
            · rename_i hmade
              exact .aboveMade hne hmissing hparent habove hmade
            · rename_i hrefused
              dsimp only
              split
              · rename_i hpresent
                exact .abovePresent hne hmissing hparent habove hpresent
              · rename_i habsent
                exact .refusedBelow hne hmissing hparent habove hrefused (by simpa using habsent)
      · dsimp only
        split
        · rename_i hpresent
          exact .present hpresent
        · exact .refused hne

theorem Making.of_empty {outcome : Except SystemFault Unit} (h : Making fs p outcome left)
    (hempty : p.text = "") : outcome = .ok () ∧ left = fs := by
  cases h with
  | empty | present => exact ⟨rfl, rfl⟩
  | made hne | refused hne | aboveRefused hne | aboveMade hne | abovePresent hne
  | refusedBelow hne => exact absurd hempty hne

/-- What the making of directories does to a system: it adds directories, and a tree stays one. -/
structure Grows (fs left : FileSystem) : Prop where
  keeps : Keeps fs left []
  file : ∀ location content, left.lookup location = some (.file content) →
    fs.lookup location = some (.file content)
  nested : fs.Nested → left.Nested

theorem Grows.refl (fs : FileSystem) : Grows fs fs := ⟨Keeps.refl fs, fun _ _ h => h, id⟩

theorem Grows.trans {mid : FileSystem} (h : Grows fs mid) (hmore : Grows mid left) :
    Grows fs left where
  keeps := h.keeps.trans hmore.keeps
  file := fun location content hfile => h.file location content (hmore.file location content hfile)
  nested := fun hfs => hmore.nested (h.nested hfs)

theorem grows_makeDirectory {made : FileSystem} (h : fs.makeDirectory p = .ok made) :
    Grows fs made := by
  obtain ⟨location, name, hlocate, hstep, hlookup, rfl⟩ := makeDirectory_eq_ok h
  refine ⟨Keeps.of_insert_directory hlookup, ?_, ?_⟩
  · intro other content hfile
    by_cases heq : other = location ++ [name]
    · rw [heq, lookup_insert_self fs (by simp)] at hfile
      cases hfile
    · rwa [lookup_insert_of_ne fs heq] at hfile
  · exact fun hfs => hfs.insert (lookup_of_step_eq_ok hstep) (.inl rfl)

theorem Making.grows {outcome : Except SystemFault Unit} (h : Making fs p outcome left) :
    Grows fs left := by
  induction h with
  | empty | present | refused => exact Grows.refl fs
  | made _ h => exact grows_makeDirectory h
  | aboveRefused _ _ _ _ ih | abovePresent _ _ _ _ _ ih | refusedBelow _ _ _ _ _ _ ih => exact ih
  | aboveMade _ _ _ _ h ih => exact ih.trans (grows_makeDirectory h)

theorem Making.isDirectory (h : Making fs p (.ok ()) left) (hne : p.text ≠ "") :
    left.isDirectory p = true := by
  cases h with
  | empty h => exact absurd h hne
  | present h => exact h
  | made _ h => exact isDirectory_of_makeDirectory h
  | aboveMade _ _ _ _ h => exact isDirectory_of_makeDirectory h
  | abovePresent _ _ _ _ h => exact h

/-- A failed attempt that made directories, and what any further attempt comes to. -/
structure Stuck (left : FileSystem) (p : Path) (fault again : SystemFault) : Prop where
  refused : left.makeDirectory p = .error again
  found : again ≠ .notFound
  absent : left.isDirectory p = false
  nonempty : p.text ≠ ""
  cause : again = fault ∨ (fault = .alreadyExists ∧ again = .notDirectory ∧ ".." ∈ names p)
  blocked : again = .alreadyExists → ".." ∈ names p

theorem checkPath_of_makeDirectory (h : fs.makeDirectory p = .error .notFound) (hne : p.text ≠ "") :
    checkPath p = .ok () := by
  cases hcheck : checkPath p with
  | ok _ => rfl
  | error fault =>
    have hlocate : fs.locateParent p = .error fault := by
      rw [locateParent, hcheck]
      rfl
    rw [makeDirectory_of_locateParent_error hlocate] at h
    cases h
    exact absurd hcheck (checkPath_ne_notFound hne)

theorem origin_of_isAbove (habove : q.IsAbove p) : fs.origin p = fs.origin q := by
  rw [origin, origin, habove.absolute]

/-- What happens at a path hangs on the entering of a path above it. -/
theorem exists_locateParent_eq (habove : q.IsAbove p) (hcheck : checkPath p = .ok ()) :
    ∃ name, name ∈ names p ∧ name ≠ "." ∧ (∀ n ∈ names q, n ∈ names p) ∧ ∀ now : FileSystem,
      now.locateParent p =
          (now.enter (now.origin q) (names q)).map (fun location => (location, some name)) ∧
        now.walk (now.origin p) (names p) =
          now.enter (now.origin q) (names q) >>= fun location => now.step location name := by
  obtain ⟨dots, name, hdots, hname, hnames⟩ := habove.names
  refine ⟨name, by simp [hnames], hname, by simp +contextual [hnames], fun now => ⟨?_, ?_⟩⟩
  · rw [locateParent_eq_enter hcheck, hnames, List.dropLast_concat, List.getLast?_concat,
      enter_append_dots hdots, origin_of_isAbove habove]
  · rw [hnames, walk_concat_eq_enter, enter_append_dots hdots, origin_of_isAbove habove]

/-- What a walk comes to beyond a directory that cannot be made. -/
theorem enter_of_makeDirectory (hfs : fs.Nested) (hcheck : checkPath p = .ok ())
    {again : SystemFault} (h : fs.makeDirectory p = .error again) (hfound : again ≠ .notFound)
    (habsent : fs.isDirectory p = false) :
    ∃ beyond, fs.enter (fs.origin p) (names p) = .error beyond ∧
      (beyond = again ∨ (again = .alreadyExists ∧ beyond = .notDirectory)) := by
  have hno : ∀ location, fs.enter (fs.origin p) (names p) ≠ .ok location := by
    intro location henter
    rw [(isDirectory_iff_enter fs p).mpr ⟨hcheck, location, henter⟩] at habsent
    cases habsent
  rcases List.eq_nil_or_concat (names p) with hnames | ⟨init, name, hnames⟩
  · cases henter : fs.enter (fs.origin p) (names p) with
    | ok location => exact absurd henter (hno location)
    | error beyond =>
      have hlocate : fs.locateParent p = .error beyond := by
        rw [locateParent_eq_enter hcheck, hnames, List.dropLast_nil, ← hnames, henter]
        rfl
      rw [makeDirectory_of_locateParent_error hlocate] at h
      cases h
      exact ⟨_, rfl, .inl rfl⟩
  · rw [List.concat_eq_append] at hnames
    rw [hnames] at hno ⊢
    have hlocate : fs.locateParent p = _ := locateParent_eq_enter hcheck
    rw [hnames, List.dropLast_concat, List.getLast?_concat] at hlocate
    cases henter : fs.enter (fs.origin p) init with
    | error beyond =>
      rw [henter] at hlocate
      rw [makeDirectory_of_locateParent_error hlocate] at h
      cases h
      refine ⟨_, ?_, .inl rfl⟩
      rw [enter_concat, henter]
      rfl
    | ok location =>
      have hlookup := ((enter_eq_ok_iff _ _ _ _).mp henter).2
      have hconcat : fs.enter (fs.origin p) (init ++ [name]) =
          fs.step location name >>= fun target => fs.enter target [] := by
        rw [enter_concat, henter]
        rfl
      rw [henter] at hlocate
      rw [hconcat] at hno ⊢
      by_cases hdot : name = "."
      · rw [step_of_directory hlookup, if_pos hdot] at hno
        exact absurd (enter_nil_of_directory hlookup) (hno location)
      by_cases hdots : name = ".."
      · rw [step_of_directory hlookup, if_neg hdot, if_pos hdots] at hno
        exact absurd (enter_nil_of_directory (hfs _ _ hlookup)) (hno location.dropLast)
      rw [makeDirectory_of_locateParent hlocate hdot hdots] at h
      cases hstep : fs.step location name with
      | error beyond =>
        rw [hstep] at h
        cases h
        exact ⟨_, rfl, .inl rfl⟩
      | ok target =>
        rw [hstep] at h hno
        simp only [bind, Except.bind] at h hno ⊢
        cases hstands : fs.lookup target with
        | none =>
          rw [hstands] at h
          cases h
        | some node =>
          rw [hstands] at h
          cases h
          cases node with
          | directory => exact absurd (enter_nil_of_directory hstands) (hno target)
          | file content => exact ⟨.notDirectory, enter_nil_of_file hstands, .inr ⟨rfl, rfl⟩⟩

/-- A directory below one that was made can only be refused for its name, or
for a file at its place. -/
theorem stuck_below (hfs : fs.Nested) (hgrows : Grows fs left) (habove : q.IsAbove p)
    (hne : p.text ≠ "") (hmissing : fs.makeDirectory p = .error .notFound)
    (hq : left.isDirectory q = true) {fault : SystemFault} (h : left.makeDirectory p = .error fault)
    (habsent : left.isDirectory p = false) : Stuck left p fault fault := by
  have hcheck := checkPath_of_makeDirectory hmissing hne
  obtain ⟨hcheckq, location, henter⟩ := (isDirectory_iff_enter left q).mp hq
  obtain ⟨hwalkq, hlookup⟩ := (enter_eq_ok_iff _ _ _ _).mp henter
  obtain ⟨name, hmem, hdot, hsub, hparent⟩ := exists_locateParent_eq habove hcheck
  obtain ⟨hlocate, hwalk⟩ := hparent left
  rw [henter] at hlocate hwalk
  change left.locateParent p = .ok (location, some name) at hlocate
  change left.walk (left.origin p) (names p) = left.step location name at hwalk
  have hno : ∀ target, left.step location name = .ok target →
      left.lookup target ≠ some .directory := by
    intro target hstep htarget
    rw [hstep] at hwalk
    rw [(isDirectory_iff left p).mpr ⟨hcheck, target, hwalk, htarget⟩] at habsent
    cases habsent
  by_cases hdots : name = ".."
  · have hstep : left.step location name = .ok location.dropLast := by
      rw [step_of_directory hlookup, if_neg hdot, if_pos hdots]
    exact absurd (hgrows.nested hfs _ _ hlookup) (hno _ hstep)
  rw [makeDirectory_of_locateParent hlocate hdot hdots] at h
  cases hstep : left.step location name with
  | error beyond =>
    have hlong : beyond = .nameTooLong := by
      rw [step_of_directory hlookup, if_neg hdot, if_neg hdots] at hstep
      split at hstep <;> cases hstep
      rfl
    rw [hstep] at h
    cases h
    refine ⟨?_, by simp [hlong], habsent, hne, .inl rfl, by simp [hlong]⟩
    rw [makeDirectory_of_locateParent hlocate hdot hdots, hstep]
    rfl
  | ok target =>
    rw [hstep] at h
    simp only [bind, Except.bind] at h
    cases hstands : left.lookup target with
    | none =>
      rw [hstands] at h
      cases h
    | some node =>
      rw [hstands] at h
      cases h
      refine ⟨?_, by simp, habsent, hne, .inl rfl, fun _ => ?_⟩
      · rw [makeDirectory_of_locateParent hlocate hdot hdots, hstep]
        simp [bind, Except.bind, hstands]
      cases node with
      | directory => exact absurd hstands (hno target hstep)
      | file content =>
        -- without two dots the file had stood in the same place from the start, and the
        -- way to it too
        by_contra hup
        have hfile := hgrows.file target content hstands
        have htarget := eq_append_of_step_eq_ok hstep hdot hdots
        have hway : ∀ above, above <+: location → fs.lookup above = some .directory := by
          rintro above ⟨more, rfl⟩
          rw [htarget, List.append_assoc] at hfile
          exact hfs.lookup_above hfile (by simp)
        have hwalk' := walk_of_directories (fun hmem => hup (hsub _ hmem)) hwalkq hway
        rw [hgrows.keeps.origin] at hwalk'
        have henter' := (enter_eq_ok_iff _ _ _ _).mpr ⟨hwalk', hway location List.prefix_rfl⟩
        have hlocate' := (hparent fs).1
        rw [henter'] at hlocate'
        rw [makeDirectory_of_locateParent hlocate' hdot hdots,
          step_of_directory (hway location List.prefix_rfl), ← step_of_directory hlookup,
          hstep] at hmissing
        simp [bind, Except.bind, hfile] at hmissing

/-- Below a directory that cannot be made, nothing can. -/
theorem stuck_above (hfs : left.Nested) (habove : q.IsAbove p) (hne : p.text ≠ "")
    (hcheck : checkPath p = .ok ()) {fault again : SystemFault} (h : Stuck left q fault again) :
    ∃ beyond, Stuck left p fault beyond := by
  have hcheckq := checkPath_of_isPrefix habove.text habove.start hcheck
  obtain ⟨name, hmem, hdot, hsub, hparent⟩ := exists_locateParent_eq habove hcheck
  obtain ⟨hlocate, hwalk⟩ := hparent left
  obtain ⟨beyond, henter, hbeyond⟩ := enter_of_makeDirectory hfs hcheckq h.refused h.found h.absent
  rw [henter] at hlocate hwalk
  refine ⟨beyond, makeDirectory_of_locateParent_error hlocate, ?_, ?_, hne, ?_, ?_⟩
  · rcases hbeyond with rfl | ⟨_, rfl⟩
    · exact h.found
    · simp
  · rw [Bool.eq_false_iff]
    intro hdirectory
    obtain ⟨_, location, hok, _⟩ := (isDirectory_iff left p).mp hdirectory
    rw [hwalk] at hok
    cases hok
  · rcases hbeyond with rfl | ⟨hexists, rfl⟩
    · exact h.cause.imp_right fun ⟨hfault, hagain, hup⟩ => ⟨hfault, hagain, hsub _ hup⟩
    · rcases h.cause with hfault | ⟨_, hagain, _⟩
      · exact .inr ⟨hfault ▸ hexists, rfl, hsub _ (h.blocked hexists)⟩
      · rw [hexists] at hagain
        cases hagain
  · rcases hbeyond with rfl | ⟨_, rfl⟩
    · exact fun hexists => hsub _ (h.blocked hexists)
    · simp

/-- A failed attempt made nothing, or the next one fails at once. -/
theorem Making.stuck {outcome : Except SystemFault Unit} (h : Making fs p outcome left)
    (hfs : fs.Nested) (hp : p.Orderly) {fault : SystemFault} (houtcome : outcome = .error fault) :
    left = fs ∨ ∃ again, Stuck left p fault again := by
  induction h with
  | empty | present | made | aboveMade | abovePresent => cases houtcome
  | refused => exact .inl rfl
  | aboveRefused hne missing parent above ih =>
    cases houtcome
    rcases hp.above_parent? parent with hempty | ⟨habove, hq⟩
    · cases (above.of_empty hempty).1
    · rcases ih hq rfl with hsame | ⟨again, hstuck⟩
      · exact .inl hsame
      · exact .inr (stuck_above (above.grows.nested hfs) habove hne
          (checkPath_of_makeDirectory missing hne) hstuck)
  | refusedBelow hne missing parent above h absent ih =>
    cases houtcome
    rcases hp.above_parent? parent with hempty | ⟨habove, hq⟩
    · exact .inl (above.of_empty hempty).2
    · have hpresent := above.isDirectory habove.text
      exact .inr ⟨_, stuck_below hfs above.grows habove hne missing hpresent h absent⟩

theorem making_makeDirectories (fs : FileSystem) (p : Path) :
    Making fs p (fs.makeDirectories p).1 (fs.makeDirectories p).2 :=
  making_makeDirectoriesUpTo _ fs p

theorem makeDirectories_of_refused {fault : SystemFault} (hne : p.text ≠ "")
    (h : fs.makeDirectory p = .error fault) (hfound : fault ≠ .notFound) :
    fs.makeDirectories p = (if fs.isDirectory p then .ok () else .error fault, fs) := by
  have hempty : p.text.isEmpty = false := by simpa using hne
  unfold makeDirectories makeDirectoriesUpTo
  simp only [hempty, h]
  rfl

/-- A directory that is there is left as it is. -/
theorem makeDirectories_of_isDirectory (h : fs.isDirectory p = true) :
    fs.makeDirectories p = (.ok (), fs) := by
  have hne : p.text ≠ "" := ((checkPath_eq_ok_iff p).mp ((isDirectory_iff fs p).mp h).1).2.1
  rw [makeDirectories_of_refused hne (makeDirectory_of_isDirectory h) (by simp), if_pos h]

theorem grows_makeDirectories {outcome : Except SystemFault Unit}
    (h : fs.makeDirectories p = (outcome, left)) : Grows fs left := by
  have hmaking := making_makeDirectories fs p
  rw [h] at hmaking
  exact hmaking.grows

theorem isDirectory_of_makeDirectories (h : fs.makeDirectories p = (.ok (), left))
    (hne : p.text ≠ "") :
    left.isDirectory p = true := by
  have hmaking := making_makeDirectories fs p
  rw [h] at hmaking
  exact hmaking.isDirectory hne

/-- The directory at which relative paths start is not made. -/
theorem makeDirectory_dot_ne_ok (fs made : FileSystem) : fs.makeDirectory ⟨"."⟩ ≠ .ok made := by
  intro h
  obtain ⟨location, name, hlocate, hstep, _, _⟩ := makeDirectory_eq_ok h
  obtain ⟨_, _, hlookup, hname⟩ := (locateParent_eq_ok_iff _ _ _ _).mp hlocate
  have hlast : (names ⟨"."⟩).getLast? = some "." := by decide
  rw [hlast] at hname
  cases hname
  rw [step_of_directory hlookup, if_pos rfl] at hstep
  simpa using congrArg List.length (Except.ok.inj hstep)

theorem makeDirectories_dot (h : fs.isDirectory ⟨"."⟩ = false) :
    ∃ fault, fs.makeDirectories ⟨"."⟩ = (.error fault, fs) := by
  have hparent : Path.parent? ⟨"."⟩ = some ⟨""⟩ := by decide
  have hmaking := making_makeDirectories fs ⟨"."⟩
  cases hmade : fs.makeDirectories ⟨"."⟩ with
  | mk outcome left =>
    rw [hmade] at hmaking
    change Making fs ⟨"."⟩ outcome left at hmaking
    cases hmaking with
    | empty hempty => exact absurd hempty (by decide)
    | present hthere =>
      rw [h] at hthere
      cases hthere
    | made _ hdot | aboveMade _ _ _ _ hdot => exact absurd hdot (makeDirectory_dot_ne_ok _ _)
    | refused => exact ⟨_, rfl⟩
    | aboveRefused _ _ parent above =>
      rw [hparent] at parent
      cases parent
      cases (above.of_empty rfl).1
    | abovePresent _ _ parent above hthere =>
      rw [hparent] at parent
      cases parent
      rw [(above.of_empty rfl).2, h] at hthere
      cases hthere
    | refusedBelow _ _ parent above =>
      rw [hparent] at parent
      cases parent
      obtain ⟨_, rfl⟩ := above.of_empty rfl
      exact ⟨_, rfl⟩

/-- A second attempt after a failed one changes nothing, and how it fails is known. -/
theorem makeDirectories_again (hfs : fs.Nested) (hp : p.Orderly) {fault : SystemFault}
    (h : fs.makeDirectories p = (.error fault, left)) :
    ∃ again, left.makeDirectories p = (.error again, left) ∧
      (again = fault ∨ (fault = .alreadyExists ∧ again = .notDirectory ∧ ".." ∈ names p)) := by
  have hmaking := making_makeDirectories fs p
  rw [h] at hmaking
  rcases hmaking.stuck hfs hp rfl with rfl | ⟨again, hstuck⟩
  · exact ⟨fault, h, .inl rfl⟩
  · refine ⟨again, ?_, hstuck.cause⟩
    rw [makeDirectories_of_refused hstuck.nonempty hstuck.refused hstuck.found, hstuck.absent]
    rfl

end CollisionMesh.FileSystem
