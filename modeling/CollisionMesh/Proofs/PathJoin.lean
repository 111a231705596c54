import CollisionMesh.FileSystem.Scan
import CollisionMesh.FileSystem.Writing
import CollisionMesh.Proofs.PathDirectories
import Mathlib.Data.List.Induction

/-!
# Names joined to paths

A proper name that is joined to a path is its last piece, so the path that comes out tells
the name and the directory that it is in, whatever the path looked like. What is above a name
does not hang on the name.
-/

namespace CollisionMesh

set_option autoImplicit false

open FileSystem

namespace Path

/-- The pieces that stay before a name that is joined. -/
def basePieces (p : Path) : List (List Char) :=
  if p.text = "" then [] else if p.endsInSlash then p.pieces.dropLast else p.pieces

section Join

variable {p : Path} {name : String}

theorem isAbsolute_of_isName (hname : IsName name) : (⟨name⟩ : Path).isAbsolute = false := by
  rw [Bool.eq_false_iff, isAbsolute]
  intro h
  exact hname.2.2.2 (List.mem_of_mem_head? (beq_iff_eq.mp h))

theorem endsInSlash_of_concat {init : List (List Char)} (h : p.pieces = init ++ [[]])
    (hne : init ≠ []) :
    p.endsInSlash = true := by
  have htext : ∀ pieces : List (List Char), pieces ≠ [] →
      ['/'].intercalate (pieces ++ [[]]) = ['/'].intercalate pieces ++ ['/'] := by
    intro pieces hpieces
    induction pieces with
    | nil => exact absurd rfl hpieces
    | cons piece pieces ih =>
      cases pieces with
      | nil => simp
      | cons next pieces =>
        rw [List.cons_append, List.cons_append, List.intercalate_cons_cons, ← List.cons_append,
          ih (by simp), List.intercalate_cons_cons, List.append_assoc, List.append_assoc,
          List.append_assoc]
  rw [endsInSlash, ← intercalate_pieces, h, htext init hne, List.getLast?_concat, beq_self_eq_true]

theorem pieces_join (p : Path) (hname : IsName name) :
    (p.join ⟨name⟩).pieces = p.basePieces ++ [name.toList] := by
  have hsingle : name.toList.splitOn '/' = [name.toList] := List.splitOn_eq_singleton hname.2.2.2
  unfold join basePieces
  rw [isAbsolute_of_isName hname]
  by_cases hempty : p.text = ""
  · simp [hempty, pieces, hsingle]
  · by_cases hslash : p.endsInSlash = true
    · obtain ⟨init, hinit, hpieces⟩ := pieces_of_endsInSlash hslash
      have hjoined : (⟨p.text ++ name⟩ : Path).pieces = init.splitOn '/' ++ [name.toList] := by
        rw [pieces, String.toList_append, hinit, List.append_assoc, List.singleton_append,
          List.splitOn_append_cons_self, hsingle]
      simp [hempty, hslash, hpieces, hjoined]
    · have hjoined : (⟨p.text ++ "/" ++ name⟩ : Path).pieces = p.pieces ++ [name.toList] := by
        have htext : (p.text ++ "/" ++ name).toList = p.text.toList ++ '/' :: name.toList := by simp
        rw [pieces, htext, List.splitOn_append_cons_self, hsingle, pieces]
      simp [hempty, hslash, hjoined]

theorem isAbsolute_join (hp : p.text ≠ "") (hname : IsName name) :
    (p.join ⟨name⟩).isAbsolute = p.isAbsolute := by
  obtain ⟨c, cs, htext⟩ := List.exists_cons_of_ne_nil (mt String.toList_eq_nil_iff.mp hp)
  unfold join
  rw [isAbsolute_of_isName hname]
  by_cases hslash : p.endsInSlash = true
  · simp [hslash, isAbsolute, htext]
  · simp [hslash, isAbsolute, htext]

theorem pieceNames_basePieces (p : Path) : pieceNames p.basePieces = names p := by
  unfold basePieces
  split
  · rename_i hempty
    rw [names_eq, p.text_eq_empty_iff.mp hempty]
    rfl
  · split
    · rename_i hslash
      obtain ⟨init, _, hpieces⟩ := pieces_of_endsInSlash hslash
      rw [names_eq, hpieces, List.dropLast_concat, pieceNames_append]
      exact (List.append_nil _).symm
    · rfl

theorem basePieces_of_pieces {before : List (List Char)} (h : p.pieces = before ++ [name.toList])
    (hname : IsName name) : p.basePieces = p.pieces := by
  rw [basePieces, if_neg (text_ne_empty_of_pieces h hname), endsInSlash_of_pieces h hname,
    if_neg (by simp)]

theorem join_text_ne (p : Path) (hname : IsName name) : (p.join ⟨name⟩).text ≠ "" :=
  text_ne_empty_of_pieces (pieces_join p hname) hname

theorem basePieces_join (p : Path) (hname : IsName name) :
    (p.join ⟨name⟩).basePieces = (p.join ⟨name⟩).pieces :=
  basePieces_of_pieces (pieces_join p hname) hname

theorem extendPath_concat (root : Path) (ns : List String) (n : String) :
    extendPath root (ns ++ [n]) = (extendPath root ns).join ⟨n⟩ := by
  rw [extendPath, List.foldl_concat, extendPath]

/-- A path with names joined one after the other. -/
theorem pieces_extendPath {root : Path} {ns : List String} (hns : ∀ n ∈ ns, IsName n)
    (hne : ns ≠ []) :
    (extendPath root ns).pieces = root.basePieces ++ ns.map String.toList := by
  induction ns using List.reverseRecOn with
  | nil => exact absurd rfl hne
  | append_singleton ns n ih =>
    have hn : IsName n := hns n (List.mem_append_right ns List.mem_cons_self)
    have hinit : ∀ m ∈ ns, IsName m := fun m hm => hns m (List.mem_append_left [n] hm)
    rw [extendPath_concat, pieces_join _ hn, List.map_append,
      List.map_singleton, ← List.append_assoc]
    congr 1
    rcases List.eq_nil_or_concat ns with rfl | ⟨before, last, hconcat⟩
    · exact (List.append_nil _).symm
    · rw [List.concat_eq_append] at hconcat
      have hlast : IsName last := hinit last (by simp [hconcat])
      have hbase : (extendPath root ns).basePieces = (extendPath root ns).pieces := by
        rw [hconcat, extendPath_concat, basePieces_join _ hlast]
      rw [hbase, ih hinit (by simp [hconcat])]

theorem isAbsolute_extendPath {root : Path} {ns : List String} (hroot : root.text ≠ "")
    (hns : ∀ n ∈ ns, IsName n) : (extendPath root ns).isAbsolute = root.isAbsolute := by
  induction ns using List.reverseRecOn with
  | nil => rfl
  | append_singleton ns n ih =>
    have hn : IsName n := hns n (List.mem_append_right ns List.mem_cons_self)
    have hinit : ∀ m ∈ ns, IsName m := fun m hm => hns m (List.mem_append_left [n] hm)
    have htext : (extendPath root ns).text ≠ "" := by
      rcases List.eq_nil_or_concat ns with rfl | ⟨before, last, hconcat⟩
      · exact hroot
      · rw [List.concat_eq_append] at hconcat
        rw [hconcat, extendPath_concat]
        exact join_text_ne _ (hinit last (by simp [hconcat]))
    rw [extendPath_concat, isAbsolute_join htext hn, ih hinit]

end Join

section Containing

variable {p : Path} {before : List (List Char)} {name : String}

theorem containingDirectory_of_pieces (hp : p.pieces = before ++ [name.toList])
    (hname : IsName name) :
    p.containingDirectory = if before = [] then ⟨"."⟩ else directoryOf before := by
  rw [containingDirectory, parent?_of_pieces hp hname]
  cases before with
  | nil => rfl
  | cons first rest =>
    have hne := (isAbove_directoryOf hp (isSome_ofPiece?_of_isName hname)).text
    simp [hne]

theorem orderly_containingDirectory (hp : p.pieces = before ++ [name.toList])
    (hname : IsName name) :
    p.containingDirectory.Orderly := by
  rw [containingDirectory_of_pieces hp hname]
  cases before with
  | nil => exact .inr rfl
  | cons first rest =>
    exact orderly_directoryOf fun piece hpiece =>
      not_mem_of_mem_pieces (hp ▸ List.mem_append_left [name.toList] hpiece)

theorem containingDirectory_text_ne (hp : p.pieces = before ++ [name.toList])
    (hname : IsName name) :
    p.containingDirectory.text ≠ "" := by
  rw [containingDirectory_of_pieces hp hname]
  cases before with
  | nil => decide
  | cons first rest => exact (isAbove_directoryOf hp (isSome_ofPiece?_of_isName hname)).text

theorem names_of_pieces (hp : p.pieces = before ++ [name.toList]) (hname : IsName name) :
    names p = pieceNames before ++ [name] := by
  rw [names_eq, hp, pieceNames_append, pieceNames_singleton hname.1]

/-- The names before the last one lead where the containing directory does. -/
theorem enter_containingDirectory (hp : p.pieces = before ++ [name.toList]) (hname : IsName name)
    (fs : FileSystem) :
    fs.enter (fs.origin p.containingDirectory) (names p.containingDirectory) =
      fs.enter (fs.origin p) (pieceNames before) := by
  rw [containingDirectory_of_pieces hp hname]
  cases before with
  | nil =>
    have hrelative : p.isAbsolute = false := isAbsolute_of_pieces_singleton hp
    have horigin : fs.origin p = fs.origin ⟨"."⟩ := by rw [origin, hrelative]; rfl
    have hdot : names ⟨"."⟩ = [] ++ ["."] := by decide
    rw [if_pos rfl, hdot, enter_concat_dot, horigin]
    rfl
  | cons first rest =>
    have habove := isAbove_directoryOf hp (isSome_ofPiece?_of_isName hname)
    obtain ⟨dots, last, hdots, _, hnames⟩ := habove.names
    rw [names_of_pieces hp hname] at hnames
    obtain ⟨hinit, _⟩ := List.append_singleton_inj.mp hnames
    rw [if_neg (by simp), hinit, enter_append_dots hdots, origin, origin, habove.absolute]

theorem locateParent_of_pieces (hp : p.pieces = before ++ [name.toList]) (hname : IsName name)
    (hcheck : checkPath p = .ok ()) (fs : FileSystem) :
    fs.locateParent p =
      (fs.enter (fs.origin p.containingDirectory) (names p.containingDirectory)).map fun location =>
        (location, some name) := by
  rw [locateParent_eq_enter hcheck, names_of_pieces hp hname, List.dropLast_concat,
    List.getLast?_concat, enter_containingDirectory hp hname]

theorem checkPath_containingDirectory (hp : p.pieces = before ++ [name.toList])
    (hname : IsName name) (hcheck : checkPath p = .ok ()) :
    checkPath p.containingDirectory = .ok () := by
  rw [containingDirectory_of_pieces hp hname]
  cases before with
  | nil => rfl
  | cons first rest =>
    have habove := isAbove_directoryOf hp (isSome_ofPiece?_of_isName hname)
    exact checkPath_of_isPrefix habove.text habove.start hcheck

/-- What a path with a proper name leads to has that name, in the directory
that contains the path. -/
theorem eq_append_of_locate {fs : FileSystem} (hp : p.pieces = before ++ [name.toList])
    (hname : IsName name) {location : Location} {node : Node}
    (h : fs.locate p = .ok (location, node)) :
    ∃ above, fs.enter (fs.origin p.containingDirectory) (names p.containingDirectory) = .ok above ∧
      location = above ++ [name] := by
  obtain ⟨_, hwalk, _⟩ := (locate_eq_ok_iff fs p location node).mp h
  rw [names_of_pieces hp hname, walk_concat_eq_enter, bind_eq_ok_iff] at hwalk
  obtain ⟨above, henter, hstep⟩ := hwalk
  rw [enter_containingDirectory hp hname]
  exact ⟨above, henter, eq_append_of_step_eq_ok hstep hname.2.1 hname.2.2.1⟩

theorem eq_append_of_place {fs : FileSystem} (hp : p.pieces = before ++ [name.toList])
    (hname : IsName name) {target : Location} (h : fs.place p = .ok target) :
    ∃ above, fs.enter (fs.origin p.containingDirectory) (names p.containingDirectory) = .ok above ∧
      target = above ++ [name] := by
  obtain ⟨_, _, _, location, last, hlocate, hdot, hdots, hstep⟩ :=
    (place_eq_ok_iff fs p target).mp h
  have hcheck := ((locateParent_eq_ok_iff _ _ _ _).mp hlocate).1
  rw [locateParent_of_pieces hp hname hcheck] at hlocate
  cases henter : fs.enter (fs.origin p.containingDirectory) (names p.containingDirectory) with
  | error fault =>
    rw [henter] at hlocate
    cases hlocate
  | ok above =>
    rw [henter] at hlocate
    cases hlocate
    exact ⟨_, rfl, eq_append_of_step_eq_ok hstep hdot hdots⟩

/-- The directory of whatever a path with a proper name leads to is there. -/
theorem isDirectory_containingDirectory {fs : FileSystem} (hp : p.pieces = before ++ [name.toList])
    (hname : IsName name) {location : Location} {node : Node}
    (h : fs.locate p = .ok (location, node)) :
    fs.isDirectory p.containingDirectory = true := by
  obtain ⟨above, henter, _⟩ := eq_append_of_locate hp hname h
  have hcheck := ((locate_eq_ok_iff fs p location node).mp h).1
  exact (isDirectory_iff_enter _ _).mpr
    ⟨checkPath_containingDirectory hp hname hcheck, above, henter⟩

/-- A file is put only where the directory is there. -/
theorem isDirectory_of_place {fs : FileSystem} (hp : p.pieces = before ++ [name.toList])
    (hname : IsName name) {target : Location} (h : fs.place p = .ok target) :
    fs.isDirectory p.containingDirectory = true := by
  obtain ⟨above, henter, _⟩ := eq_append_of_place hp hname h
  obtain ⟨_, _, _, _, _, hlocate, _⟩ := (place_eq_ok_iff fs p target).mp h
  have hcheck := ((locateParent_eq_ok_iff _ _ _ _).mp hlocate).1
  exact (isDirectory_iff_enter _ _).mpr
    ⟨checkPath_containingDirectory hp hname hcheck, above, henter⟩

theorem basePieces_directoryOf {first : List Char} {rest : List (List Char)}
    (h : ∀ piece ∈ first :: rest, '/' ∉ piece) :
    (directoryOf (first :: rest)).basePieces = first :: dropTrailing rest := by
  rcases directoryOf_cons h with ⟨rfl, hkept, hroot⟩ | ⟨hkept, hpieces⟩
  · rw [hroot, hkept]
    decide
  · have hne : (directoryOf (first :: rest)).text ≠ "" := by
      intro hempty
      rw [text_eq_empty_iff, hpieces] at hempty
      obtain ⟨hfirst, hnil⟩ := List.cons.inj hempty
      exact hkept hfirst hnil
    have hslash : ¬(directoryOf (first :: rest)).endsInSlash = true := by
      intro hslash
      obtain ⟨init, _, hsplit⟩ := pieces_of_endsInSlash hslash
      rw [hpieces] at hsplit
      rcases List.eq_nil_or_concat (dropTrailing rest) with hnil | ⟨before, last, hconcat⟩
      · rw [hnil] at hsplit
        have hlength := congrArg List.length hsplit
        have hinit := List.length_pos_iff.mpr (List.splitOn_ne_nil '/' init)
        simp only [List.length_cons, List.length_nil, List.length_append] at hlength
        omega
      · rw [List.concat_eq_append] at hconcat
        have hsome := isSome_of_dropTrailing_eq hconcat
        rw [hconcat, ← List.cons_append] at hsplit
        rw [(List.append_singleton_inj.mp hsplit).2] at hsome
        cases hsome
    rw [basePieces, if_neg hne, if_neg hslash, hpieces]

/-- A name that is put beside another one has the same directory. -/
theorem containingDirectory_join_parent (hp : p.pieces = before ++ [name.toList])
    (hname : IsName name) {other : String} (hother : IsName other) :
    ((p.parent?.getD ⟨""⟩).join ⟨other⟩).containingDirectory = p.containingDirectory := by
  rw [parent?_of_pieces hp hname, Option.getD_some, containingDirectory_of_pieces hp hname,
    containingDirectory_of_pieces (pieces_join _ hother) hother]
  cases before with
  | nil => rfl
  | cons first rest =>
    have hslash : ∀ piece ∈ first :: rest, '/' ∉ piece := fun piece hpiece =>
      not_mem_of_mem_pieces (hp ▸ List.mem_append_left [name.toList] hpiece)
    rw [basePieces_directoryOf hslash, if_neg (by simp), if_neg (by simp)]
    simp only [directoryOf, dropTrailing_dropTrailing]

/-- Names that are joined to one path have one directory, and a walk to it
takes names of that path. -/
theorem containingDirectory_join (d : Path) (hname : IsName name) :
    (d.join ⟨name⟩).containingDirectory =
      if d.basePieces = [] then ⟨"."⟩ else directoryOf d.basePieces :=
  containingDirectory_of_pieces (pieces_join d hname) hname

theorem mem_names_of_join {d : Path} (hname : IsName name)
    (h : ".." ∈ names (d.join ⟨name⟩).containingDirectory) : ".." ∈ names d := by
  rw [containingDirectory_join d hname] at h
  rw [← pieceNames_basePieces]
  cases hbase : d.basePieces with
  | nil =>
    rw [hbase] at h
    revert h
    decide
  | cons first rest =>
    have hp := pieces_join d hname
    rw [hbase] at h hp
    obtain ⟨dots, last, _, _, hnames⟩ :=
      (isAbove_directoryOf hp (isSome_ofPiece?_of_isName hname)).names
    rw [names_of_pieces hp hname] at hnames
    rw [(List.append_singleton_inj.mp hnames).1]
    exact List.mem_append_left dots h

theorem exists_basePieces {d : Path} (h : d.text ≠ "") :
    d.basePieces ≠ [] ∧ ∃ more, d.pieces = d.basePieces ++ more := by
  rw [basePieces, if_neg h]
  split
  · rename_i hslash
    obtain ⟨init, _, hpieces⟩ := pieces_of_endsInSlash hslash
    rw [hpieces, List.dropLast_concat]
    exact ⟨List.splitOn_ne_nil '/' init, _, rfl⟩
  · exact ⟨d.pieces_ne_nil, [], (List.append_nil _).symm⟩

/-- A name that is joined to the path of a directory is in that directory. -/
theorem isDirectory_containingDirectory_join {fs : FileSystem} {d : Path} (hname : IsName name)
    (h : fs.isDirectory d = true) : fs.isDirectory (d.join ⟨name⟩).containingDirectory = true := by
  obtain ⟨hcheck, location, henter⟩ := (isDirectory_iff_enter fs d).mp h
  have hne : d.text ≠ "" := ((checkPath_eq_ok_iff d).mp hcheck).2.1
  have hp := pieces_join d hname
  obtain ⟨hbase, more, hpieces⟩ := exists_basePieces hne
  have hstart : (d.join ⟨name⟩).containingDirectory.text.toList <+: d.text.toList := by
    rw [containingDirectory_join d hname, if_neg hbase]
    obtain ⟨first, rest, hcons⟩ := List.exists_cons_of_ne_nil hbase
    rw [hcons] at hpieces ⊢
    exact directoryOf_isPrefix hpieces hne
  refine (isDirectory_iff_enter fs _).mpr ⟨?_, location, ?_⟩
  · exact checkPath_of_isPrefix (containingDirectory_text_ne hp hname) hstart hcheck
  · rw [enter_containingDirectory hp hname, pieceNames_basePieces, origin,
      isAbsolute_join hne hname]
    exact henter

end Containing

end Path

end CollisionMesh
