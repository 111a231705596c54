import CollisionMesh.Proofs.PathComponents

/-!
# Where paths lead

Without links, a walk that succeeds ends where the components of its path say, whatever stands
elsewhere. So paths that are the same lead to the same place. The converse fails: a dot at the
start, two dots, or the way from the root spell the same place in another way. It holds for paths
that start alike and go on with proper names.
-/

namespace CollisionMesh

set_option autoImplicit false

open FileSystem

/-- Where a component leads to from a place. -/
def Component.move (location : Location) : Component → Location
  | root => []
  | current => location
  | parent => location.dropLast
  | name text => location ++ [text]

namespace Path

/-- Where a path leads to from a working directory, if it leads anywhere. -/
def destination (p : Path) (start : Location) : Location := p.components.foldl Component.move start

/-- Whether a path leads to a place, in some file system with this working directory. -/
def LeadsTo (p : Path) (start location : Location) : Prop :=
  ∃ fs : FileSystem, fs.workingDirectory = start ∧ ∃ node, fs.locate p = .ok (location, node)

/-- Whether two paths have the same components up to a point from which on both
have proper names only. -/
def StartAlike (p q : Path) : Prop :=
  ∃ (start : List Component) (names names' : List String),
    p.components = start ++ names.map .name ∧ q.components = start ++ names'.map .name

theorem destination_of_same {p q : Path} (h : p.same q = true) (start : Location) :
    p.destination start = q.destination start := by
  rw [same, beq_iff_eq] at h
  rw [destination, destination, h]

theorem foldl_move_names (names : List String) (location : Location) :
    (names.map Component.name).foldl Component.move location = location ++ names := by
  induction names generalizing location with
  | nil => simp
  | cons name names ih =>
    rw [List.map_cons, List.foldl_cons, ih, Component.move, List.append_assoc,
      List.singleton_append]

theorem destination_eq_iff_same {p q : Path} (h : p.StartAlike q) (start : Location) :
    p.destination start = q.destination start ↔ p.same q = true := by
  refine ⟨fun hdestination => ?_, fun hsame => destination_of_same hsame start⟩
  obtain ⟨common, names, names', hp, hq⟩ := h
  rw [destination, destination, hp, hq, List.foldl_append, List.foldl_append, foldl_move_names,
    foldl_move_names] at hdestination
  rw [same, beq_iff_eq, hp, hq, List.append_cancel_left hdestination]

/-- The first component only says where the walk starts. -/
theorem destination_eq (p : Path) (start : Location) :
    p.destination start =
      (p.pieces.filterMap Component.ofPiece?).foldl Component.move
        (if p.isAbsolute then [] else start) := by
  obtain ⟨first, rest, hpieces⟩ := List.exists_cons_of_ne_nil p.pieces_ne_nil
  rw [destination, components, hpieces]
  by_cases habsolute : p.isAbsolute = true
  · obtain ⟨_, _, hfirst⟩ := p.isAbsolute_iff.mp habsolute
    rw [hpieces] at hfirst
    obtain rfl : first = [] := (List.cons.inj hfirst).1
    simp only [habsolute, firstComponent?, if_true]
    rfl
  · simp only [habsolute, firstComponent?, List.filterMap_cons]
    -- a dot in front is the one dot that is a component, and it moves nowhere
    by_cases hdot : first = ['.']
    · simp [hdot, Component.move, Component.ofPiece?]
    · cases Component.ofPiece? first <;> simp [hdot]

end Path

namespace FileSystem

variable {fs : FileSystem} {p q : Path}

theorem eq_foldl_of_step {piece : List Char} (hpiece : piece ≠ []) {location next : Location}
    (h : fs.step location (String.ofList piece) = .ok next) :
    next = (Component.ofPiece? piece).toList.foldl Component.move location := by
  rw [step_of_directory (lookup_of_step_eq_ok h)] at h
  unfold Component.ofPiece?
  split
  · exact absurd rfl hpiece
  · rw [if_pos (by decide)] at h
    exact (Except.ok.inj h).symm
  · rw [if_neg (by decide), if_pos (by decide)] at h
    exact (Except.ok.inj h).symm
  · rename_i hdot hdots
    have hname : ∀ cs : List Char, piece ≠ cs → String.ofList piece ≠ String.ofList cs :=
      fun cs hne heq => hne (String.ofList_injective heq)
    rw [if_neg (hname ['.'] hdot), if_neg (hname ['.', '.'] hdots)] at h
    split at h
    · cases h
    · exact (Except.ok.inj h).symm

theorem eq_foldl_of_walk {pieces : List (List Char)} {start finish : Location}
    (h : fs.walk start (pieceNames pieces) = .ok finish) :
    finish = (pieces.filterMap Component.ofPiece?).foldl Component.move start := by
  induction pieces generalizing start with
  | nil => exact (Except.ok.inj h).symm
  | cons piece pieces ih =>
    -- an empty piece is neither a step of the walk nor a component
    by_cases hpiece : piece = []
    · subst hpiece
      exact ih h
    · have hnames : pieceNames (piece :: pieces) = String.ofList piece :: pieceNames pieces := by
        simp [pieceNames, hpiece]
      rw [hnames, walk_cons, bind_eq_ok_iff] at h
      obtain ⟨next, hstep, hwalk⟩ := h
      rw [ih hwalk, eq_foldl_of_step hpiece hstep, List.filterMap_cons]
      cases Component.ofPiece? piece <;> rfl

theorem destination_of_walk {location : Location}
    (h : fs.walk (fs.origin p) (names p) = .ok location) :
    location = p.destination fs.workingDirectory := by
  rw [names_eq] at h
  rw [eq_foldl_of_walk h, Path.destination_eq, origin]

theorem destination_of_locate {location : Location} {node : Node}
    (h : fs.locate p = .ok (location, node)) :
    location = p.destination fs.workingDirectory :=
  destination_of_walk ((locate_eq_ok_iff fs p location node).mp h).2.1

theorem destination_of_place {target : Location} (h : fs.place p = .ok target) :
    target = p.destination fs.workingDirectory := by
  obtain ⟨_, _, _, location, name, hlocate, _, _, hstep⟩ := (place_eq_ok_iff fs p target).mp h
  exact destination_of_walk ((walk_of_locateParent hlocate).trans hstep)

end FileSystem

namespace Path

variable {p q : Path}

theorem leadsTo_of_map {fs : FileSystem} {location : Location}
    (h : (fs.locate p).map Prod.fst = .ok location) : p.LeadsTo fs.workingDirectory location := by
  obtain ⟨found, hlocate, rfl⟩ := exists_of_map_eq_ok h
  exact ⟨fs, rfl, found.2, hlocate⟩

/-- A path leads to one place at most. -/
theorem LeadsTo.eq_destination {start location : Location} (h : p.LeadsTo start location) :
    location = p.destination start := by
  obtain ⟨fs, rfl, node, hlocate⟩ := h
  exact destination_of_locate hlocate

section Names

variable {name other : String}

theorem destination_concat {start : List Component} (h : p.components = start ++ [.name name])
    (location : Location) :
    p.destination location = start.foldl Component.move location ++ [name] := by
  rw [destination, h, List.foldl_concat, Component.move]

/-- Paths that lead to one place have one file name. -/
theorem eq_of_destination_eq {a b : List Component} (hp : p.components = a ++ [.name name])
    (hq : q.components = b ++ [.name other]) {start : Location}
    (h : p.destination start = q.destination start) :
    name = other := by
  rw [destination_concat hp, destination_concat hq] at h
  exact (List.append_singleton_inj.mp h).2

/-- Names that are joined to one path lead to different places. -/
theorem eq_of_destination_join {d : Path} (hname : IsName name) (hother : IsName other)
    {start : Location}
    (h : (d.join ⟨name⟩).destination start = (d.join ⟨other⟩).destination start) : name = other :=
  eq_of_destination_eq (components_join d hname) (components_join d hother) h

end Names

end Path

end CollisionMesh
