import CollisionMesh.Proofs.Walking
import CollisionMesh.Proofs.PathPieces
import CollisionMesh.FileSystem.Scan

/-!
# The directory above a path

A walk to the directory above a path takes the names of the path but the last, up to dots, which
lead nowhere. `IsAbove` is that relation between two paths; the parent of an orderly path is
above it and orderly again.
-/

namespace CollisionMesh

set_option autoImplicit false

namespace FileSystem

/-- The names that pieces between slashes give to a walk. -/
def pieceNames (pieces : List (List Char)) : List String :=
  (pieces.filter fun piece => !piece.isEmpty).map String.ofList

theorem names_eq (p : Path) : names p = pieceNames p.pieces := rfl

theorem pieceNames_append (before after : List (List Char)) :
    pieceNames (before ++ after) = pieceNames before ++ pieceNames after := by
  simp [pieceNames]

theorem pieceNames_singleton {name : String} (h : name ≠ "") :
    pieceNames [name.toList] = [name] := by
  have hempty : name.toList.isEmpty = false := by simpa using h
  simp [pieceNames, hempty]

theorem pieceNames_map {ns : List String} (h : ∀ n ∈ ns, n ≠ "") :
    pieceNames (ns.map String.toList) = ns := by
  induction ns with
  | nil => rfl
  | cons n ns ih =>
    obtain ⟨hn, hns⟩ := List.forall_mem_cons.mp h
    rw [List.map_cons, ← List.singleton_append, pieceNames_append, pieceNames_singleton hn, ih hns,
      List.singleton_append]

/-- Dropped pieces give dots to a walk. -/
theorem eq_dot_of_mem_pieceNames {pieces : List (List Char)}
    (h : ∀ piece ∈ pieces, Component.ofPiece? piece = none) :
    ∀ name ∈ pieceNames pieces, name = "." := by
  intro name hname
  obtain ⟨piece, hpiece, rfl⟩ := List.mem_map.mp hname
  obtain ⟨hmem, hempty⟩ := List.mem_filter.mp hpiece
  have hnone := h piece hmem
  unfold Component.ofPiece? at hnone
  split at hnone
  · cases hempty
  · rfl
  · cases hnone
  · cases hnone

/-- Follows names to a directory. -/
def enter (fs : FileSystem) (start : Location) (names : List String) :
    Except SystemFault Location := do
  let location ← fs.walk start names
  match fs.lookup location with
  | none => .error .notFound
  | some (.file _) => .error .notDirectory
  | some .directory => .ok location

section Entering

variable {fs : FileSystem} {start : Location} {names : List String}

theorem enter_eq_ok_iff (fs : FileSystem) (start : Location) (names : List String)
    (location : Location) :
    fs.enter start names = .ok location ↔
      fs.walk start names = .ok location ∧ fs.lookup location = some .directory := by
  unfold enter
  rw [bind_eq_ok_iff]
  constructor
  · rintro ⟨found, hwalk, h⟩
    split at h
    · cases h
    · cases h
    · rename_i hlookup
      cases h
      exact ⟨hwalk, hlookup⟩
  · rintro ⟨hwalk, hlookup⟩
    exact ⟨location, hwalk, by rw [hlookup]⟩

theorem enter_of_directory {now : FileSystem}
    (h : ∀ location, now.lookup location = some .directory → fs.lookup location = some .directory)
    {location : Location} (henter : now.enter start names = .ok location) :
    fs.enter start names = .ok location := by
  rw [enter_eq_ok_iff] at henter ⊢
  exact ⟨walk_of_directory h henter.1, h location henter.2⟩

/-- The last step of a walk starts in the directory that the names before it lead to. -/
theorem walk_concat_eq_enter (fs : FileSystem) (start : Location) (names : List String)
    (name : String) :
    fs.walk start (names ++ [name]) =
      fs.enter start names >>= fun location => fs.step location name := by
  rw [walk_concat, enter]
  cases fs.walk start names with
  | error fault => rfl
  | ok location =>
    change fs.step location name = (match fs.lookup location with
      | none => Except.error SystemFault.notFound
      | some (.file _) => .error .notDirectory
      | some .directory => .ok location) >>= fun location => fs.step location name
    cases hlookup : fs.lookup location with
    | none => exact step_of_lookup_eq_none hlookup
    | some node =>
      cases node with
      | directory => rfl
      | file content => exact step_of_file hlookup

theorem enter_nil_of_directory {location : Location} (h : fs.lookup location = some .directory) :
    fs.enter location [] = .ok location :=
  (enter_eq_ok_iff fs location [] location).mpr ⟨rfl, h⟩

theorem enter_nil_of_file {location : Location} {content : ByteArray}
    (h : fs.lookup location = some (.file content)) :
    fs.enter location [] = .error .notDirectory := by
  change (match fs.lookup location with
    | none => Except.error SystemFault.notFound
    | some (.file _) => .error .notDirectory
    | some .directory => .ok location) = _
  rw [h]

theorem enter_concat (fs : FileSystem) (start : Location) (names : List String) (name : String) :
    fs.enter start (names ++ [name]) =
      fs.enter start names >>= fun location => fs.step location name >>= fun target =>
        fs.enter target [] := by
  rw [enter, walk_concat_eq_enter]
  cases fs.enter start names with
  | error fault => rfl
  | ok location => cases fs.step location name <;> rfl

theorem enter_concat_dot (fs : FileSystem) (start : Location) (names : List String) :
    fs.enter start (names ++ ["."]) = fs.enter start names := by
  rw [enter_concat]
  cases henter : fs.enter start names with
  | error fault => rfl
  | ok location =>
    have hlookup := ((enter_eq_ok_iff fs start names location).mp henter).2
    change (fs.step location "." >>= _) = _
    rw [step_of_directory hlookup, if_pos rfl]
    exact enter_nil_of_directory hlookup

/-- Dots at the end lead nowhere. -/
theorem enter_append_dots {dots : List String} (hdots : ∀ name ∈ dots, name = ".") :
    fs.enter start (names ++ dots) = fs.enter start names := by
  induction dots generalizing names with
  | nil => rw [List.append_nil]
  | cons name dots ih =>
    obtain ⟨hname, hmore⟩ := List.forall_mem_cons.mp hdots
    rw [← List.singleton_append, ← List.append_assoc, ih hmore, hname, enter_concat_dot]

theorem locateParent_eq_enter {p : Path} (h : checkPath p = .ok ()) :
    fs.locateParent p =
      (fs.enter (fs.origin p) (FileSystem.names p).dropLast).map fun location =>
        (location, (FileSystem.names p).getLast?) := by
  unfold locateParent enter walk
  rw [h]
  change (List.foldlM fs.step (fs.origin p) (FileSystem.names p).dropLast >>= _) = _
  cases List.foldlM fs.step (fs.origin p) (FileSystem.names p).dropLast with
  | error fault => rfl
  | ok location =>
    simp only [bind, Except.bind]
    cases fs.lookup location with
    | none => rfl
    | some node => cases node <;> rfl

theorem isDirectory_iff_enter (fs : FileSystem) (p : Path) :
    fs.isDirectory p = true ↔
      checkPath p = .ok () ∧ ∃ location, fs.enter (fs.origin p) (FileSystem.names p) =
        .ok location := by
  simp only [isDirectory_iff, enter_eq_ok_iff]

end Entering

theorem checkPath_eq_ok_iff (p : Path) :
    checkPath p = .ok () ↔
      '\x00' ∉ p.text.toList ∧ p.text ≠ "" ∧ p.text.utf8ByteSize ≤ pathLimit := by
  unfold checkPath
  split
  · rename_i hnul
    simp only [List.contains_iff_mem] at hnul
    simp [hnul]
  · rename_i hnul
    simp only [List.contains_iff_mem] at hnul
    split
    · rename_i hempty
      simp [String.isEmpty_iff.mp hempty]
    · rename_i hempty
      rw [String.isEmpty_iff] at hempty
      split
      · rename_i hlong
        simp [Nat.not_le.mpr hlong]
      · rename_i hlong
        simp [hnul, hempty, Nat.not_lt.mp hlong]

theorem checkPath_ne_notFound {p : Path} (hne : p.text ≠ "") : checkPath p ≠ .error .notFound := by
  intro h
  unfold checkPath at h
  split at h
  · cases h
  · split at h
    · rename_i hempty
      exact hne (String.isEmpty_iff.mp hempty)
    · split at h <;> cases h

theorem checkPath_of_isPrefix {p q : Path} (hq : q.text ≠ "") (h : q.text.toList <+: p.text.toList)
    (hp : checkPath p = .ok ()) : checkPath q = .ok () := by
  obtain ⟨hnul, _, hlong⟩ := (checkPath_eq_ok_iff p).mp hp
  obtain ⟨suffix, hsuffix⟩ := h
  have htext : p.text = q.text ++ String.ofList suffix := by
    rw [← String.toList_inj, String.toList_append, String.toList_ofList, hsuffix]
  rw [htext, String.utf8ByteSize_append] at hlong
  rw [checkPath_eq_ok_iff]
  refine ⟨fun hmem => hnul ?_, hq, by omega⟩
  rw [← hsuffix]
  exact List.mem_append_left suffix hmem

end FileSystem

namespace Path

open FileSystem

/-- A path to the directory above another one, up to dots. -/
structure IsAbove (q p : Path) : Prop where
  text : q.text ≠ ""
  start : q.text.toList <+: p.text.toList
  absolute : q.isAbsolute = p.isAbsolute
  names : ∃ dots name, (∀ n ∈ dots, n = ".") ∧ name ≠ "." ∧ names p = names q ++ dots ++ [name]

/-- Whether a path has no pieces behind its last component; the root is taken as it is. -/
def Orderly (p : Path) : Prop :=
  p.text = "/" ∨ dropTrailing p.pieces.tail = p.pieces.tail

theorem dropTrailing_dropTrailing (pieces : List (List Char)) :
    dropTrailing (dropTrailing pieces) = dropTrailing pieces := by
  rcases List.eq_nil_or_concat (dropTrailing pieces) with hnil | ⟨init, last, hconcat⟩
  · rw [hnil]
    rfl
  · rw [List.concat_eq_append] at hconcat
    rw [hconcat]
    exact dropTrailing_append_of_isSome (isSome_of_dropTrailing_eq hconcat) init

section DirectoryOf

variable {first : List Char} {rest : List (List Char)}

theorem intercalate_isPrefix {pieces more : List (List Char)} (h : pieces <+: more) :
    ['/'].intercalate pieces <+: ['/'].intercalate more := by
  obtain ⟨tail, rfl⟩ := h
  induction pieces with
  | nil => exact List.nil_prefix
  | cons piece pieces ih =>
    cases pieces with
    | nil =>
      cases tail with
      | nil => exact List.prefix_rfl
      | cons next tail =>
        rw [List.intercalate_singleton, List.cons_append, List.nil_append,
          List.intercalate_cons_cons, List.append_assoc]
        exact List.prefix_append _ _
    | cons next pieces =>
      rw [List.cons_append, List.cons_append, List.intercalate_cons_cons,
        List.intercalate_cons_cons]
      exact (List.prefix_append_right_inj _).mpr ih

/-- The directory above a name is the root, or it has the pieces before the name
but the trailing ones. -/
theorem directoryOf_cons (h : ∀ piece ∈ first :: rest, '/' ∉ piece) :
    (first = [] ∧ dropTrailing rest = [] ∧ directoryOf (first :: rest) = ⟨"/"⟩) ∨
      ((first = [] → dropTrailing rest ≠ []) ∧
        (directoryOf (first :: rest)).pieces = first :: dropTrailing rest) := by
  have hkept : ∀ piece ∈ first :: dropTrailing rest, '/' ∉ piece := by
    rw [List.forall_mem_cons] at h ⊢
    exact ⟨h.1, fun piece hpiece => h.2 piece ((dropTrailing_isPrefix rest).subset hpiece)⟩
  simp only [directoryOf]
  cases hrest : dropTrailing rest with
  | nil =>
    rw [hrest] at hkept
    by_cases hempty : first = []
    · exact .inl ⟨hempty, rfl, by simp [hempty]⟩
    · have hfirst : first.isEmpty = false := by simpa using hempty
      simp only [hfirst]
      exact .inr ⟨fun h => absurd h hempty, pieces_ofPieces (by simp) hkept⟩
  | cons piece pieces =>
    rw [hrest] at hkept
    exact .inr ⟨fun _ => by simp, pieces_ofPieces (by simp) hkept⟩

theorem orderly_directoryOf (h : ∀ piece ∈ first :: rest, '/' ∉ piece) :
    Orderly (directoryOf (first :: rest)) := by
  rcases directoryOf_cons h with ⟨_, _, hroot⟩ | ⟨_, hpieces⟩
  · exact .inl (by rw [hroot])
  · refine .inr ?_
    rw [hpieces, List.tail_cons, dropTrailing_dropTrailing]

theorem isAbsolute_eq_of_pieces {p q : Path} {more : List (List Char)}
    (hp : p.pieces = first :: more) (hq : q.pieces = first :: rest) (hmore : more ≠ [])
    (hne : first = [] → rest ≠ []) :
    q.isAbsolute = p.isAbsolute := by
  rw [Bool.eq_iff_iff, isAbsolute_iff, isAbsolute_iff, hp, hq]
  constructor
  · rintro ⟨_, _, heq⟩
    exact ⟨more, hmore, by rw [(List.cons.inj heq).1]⟩
  · rintro ⟨_, _, heq⟩
    exact ⟨rest, hne (List.cons.inj heq).1, by rw [(List.cons.inj heq).1]⟩

theorem ofList_ne_of_isSome {last : List Char} (h : (Component.ofPiece? last).isSome = true) :
    String.ofList last ≠ "" ∧ String.ofList last ≠ "." := by
  constructor
  · intro heq
    rw [show last = [] by simpa using congrArg String.toList heq] at h
    cases h
  · intro heq
    rw [show last = ['.'] by simpa using congrArg String.toList heq] at h
    cases h

/-- The directory of some pieces of a path is a start of its text. -/
theorem directoryOf_isPrefix {p : Path} {more : List (List Char)}
    (hp : p.pieces = first :: rest ++ more) (hne : p.text ≠ "") :
    (directoryOf (first :: rest)).text.toList <+: p.text.toList := by
  have hslash : ∀ piece ∈ first :: rest, '/' ∉ piece := fun piece hpiece =>
    not_mem_of_mem_pieces (hp ▸ List.mem_append_left more hpiece)
  rcases directoryOf_cons hslash with ⟨rfl, _, hroot⟩ | ⟨_, hpieces⟩
  · have habsolute : p.isAbsolute = true := by
      refine p.isAbsolute_iff.mpr ⟨rest ++ more, ?_, hp⟩
      intro hnil
      exact hne (p.text_eq_empty_iff.mpr (by rw [hp, List.cons_append, hnil]))
    obtain ⟨tail, htail⟩ := List.head?_eq_some_iff.mp (beq_iff_eq.mp habsolute)
    rw [hroot, htail]
    exact ⟨tail, rfl⟩
  · rw [← intercalate_pieces, ← intercalate_pieces, hpieces, hp]
    exact intercalate_isPrefix
      (((List.prefix_cons_inj first).mpr (dropTrailing_isPrefix rest)).trans
      (List.prefix_append _ _))

theorem isAbove_directoryOf {p : Path} {last : List Char} (hp : p.pieces = first :: rest ++ [last])
    (hlast : (Component.ofPiece? last).isSome = true) :
    IsAbove (directoryOf (first :: rest)) p := by
  have hslash : ∀ piece ∈ first :: rest, '/' ∉ piece := fun piece hpiece =>
    not_mem_of_mem_pieces (hp ▸ List.mem_append_left [last] hpiece)
  obtain ⟨hempty, hdot⟩ := ofList_ne_of_isSome hlast
  obtain ⟨dropped, hrest, hdropped⟩ := exists_dropTrailing_append rest
  have hsingle : pieceNames [last] = [String.ofList last] := by
    have h := pieceNames_singleton hempty
    rwa [String.toList_ofList] at h
  have hnames : FileSystem.names p =
      pieceNames (first :: dropTrailing rest) ++ pieceNames dropped ++ [String.ofList last] := by
    rw [names_eq, hp, pieceNames_append, hsingle, ← pieceNames_append, List.cons_append, ← hrest]
  have hstart : (directoryOf (first :: rest)).text.toList <+: p.text.toList := by
    refine directoryOf_isPrefix hp fun hnil => ?_
    rw [text_eq_empty_iff, hp] at hnil
    simp at hnil
  rcases directoryOf_cons hslash with ⟨rfl, hkept, hroot⟩ | ⟨hkept, hpieces⟩
  · have habsolute : p.isAbsolute = true := p.isAbsolute_iff.mpr ⟨rest ++ [last], by simp, hp⟩
    rw [hroot] at hstart ⊢
    refine ⟨by decide, hstart, habsolute.symm, pieceNames dropped, String.ofList last,
      eq_dot_of_mem_pieceNames hdropped, hdot, ?_⟩
    rw [hnames, hkept]
    rfl
  · refine ⟨?_, hstart, ?_, pieceNames dropped, String.ofList last,
      eq_dot_of_mem_pieceNames hdropped, hdot, ?_⟩
    · intro hnil
      rw [text_eq_empty_iff, hpieces] at hnil
      obtain ⟨hfirst, hnil⟩ := List.cons.inj hnil
      exact hkept hfirst hnil
    · exact isAbsolute_eq_of_pieces (by rw [hp, List.cons_append]) hpieces (by simp) hkept
    · rw [hnames, names_eq, hpieces]

end DirectoryOf

/-- The parent of an orderly path is nothing, or it is above the path and orderly. -/
theorem Orderly.above_parent? {p q : Path} (hp : Orderly p) (h : p.parent? = some q) :
    q.text = "" ∨ (IsAbove q p ∧ Orderly q) := by
  rcases hp with hroot | hp
  · rw [ext_text (q := ⟨"/"⟩) hroot] at h
    cases h
  · obtain ⟨first, rest, hpieces⟩ := List.exists_cons_of_ne_nil p.pieces_ne_nil
    rw [hpieces, List.tail_cons] at hp
    rcases List.eq_nil_or_concat rest with rfl | ⟨init, last, hconcat⟩
    · left
      rw [parent?, splitLast?, hpieces] at h
      simp only [dropTrailing, List.reverse_nil, List.dropWhile_nil] at h
      split at h <;> cases h
      rfl
    · rw [List.concat_eq_append] at hconcat
      rw [hconcat] at hp
      have hlast := isSome_of_dropTrailing_eq hp
      have hpieces : p.pieces = first :: init ++ [last] := by
        rw [hpieces, hconcat, List.cons_append]
      rw [parent?_of_splitLast? (splitLast?_of_pieces hpieces hlast)] at h
      cases h
      refine .inr ⟨isAbove_directoryOf hpieces hlast, orderly_directoryOf fun piece hpiece => ?_⟩
      exact not_mem_of_mem_pieces (hpieces ▸ List.mem_append_left [last] hpiece)

end Path

end CollisionMesh
