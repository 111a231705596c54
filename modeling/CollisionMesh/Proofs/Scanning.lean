import CollisionMesh.Conversion
import CollisionMesh.Proofs.Identifiers
import CollisionMesh.Proofs.PathComponents
import CollisionMesh.Proofs.Trees

/-!
# Scanned inputs and their outputs

A scan of a tree yields paths that lead to mesh files, each once, and such paths in one directory
have one parent. The name of an output is never that of a mesh file.
-/

namespace CollisionMesh

set_option autoImplicit false

namespace Options

def outputName (options : Options) (input : Path) : String :=
  Identifier.arrayName (options.symbolFor input) ++ ".c"

theorem outputFor_eq_join (options : Options) (input : Path) :
    options.outputFor input =
      ((options.outputDirectory <|> input.parent?).getD ⟨""⟩).join ⟨options.outputName input⟩ := rfl

theorem isNameChar_of_mem_symbolFor {options : Options} {input : Path} {c : Char}
    (h : c ∈ (options.symbolFor input).toList) : Identifier.isNameChar c = true := by
  unfold symbolFor at h
  simp only at h
  split at h
  · have hlevel : "level".toList.all Identifier.isNameChar = true := by decide
    exact List.all_eq_true.mp hlevel c h
  · rw [Identifier.sanitize, String.toList_ofList] at h
    exact Identifier.isNameChar_of_mem_sanitizeChars h

theorem isName_outputName (options : Options) (input : Path) :
    IsName (options.outputName input) := by
  rw [outputName, Identifier.arrayName]
  apply isName_of_long
  · simp
  · intro hmem
    rw [String.toList_append, String.toList_append, List.mem_append, List.mem_append] at hmem
    rcases hmem with (hmem | hmem) | hmem
    · exact absurd (isNameChar_of_mem_symbolFor hmem) (by decide)
    · exact absurd hmem (by decide)
    · exact absurd hmem (by decide)

theorem fileName?_outputFor (options : Options) (input : Path) :
    (options.outputFor input).fileName? = some (options.outputName input) := by
  have hp := Path.pieces_join ((options.outputDirectory <|> input.parent?).getD ⟨""⟩)
    (options.isName_outputName input)
  rw [options.outputFor_eq_join]
  exact Path.fileName?_of_pieces hp (options.isName_outputName input)

theorem splitExtension_outputName (options : Options) (input : Path) :
    Path.splitExtension (options.outputName input).toList =
      ((Identifier.arrayName (options.symbolFor input)).toList, some ['c']) := by
  have htext : (options.outputName input).toList =
      (Identifier.arrayName (options.symbolFor input)).toList ++ '.' :: ['c'] := by
    rw [outputName, String.toList_append]
    rfl
  rw [htext, Path.splitExtension_append ?_ (by decide)]
  rw [Identifier.arrayName, String.toList_append]
  simp

/-- A generated file never has the name of a mesh file. -/
theorem outputName_ne_of_isMesh (options : Options) (other : Path) {input : Path} {name : String}
    (hname : input.fileName? = some name) (hmesh : input.isMesh = true) :
    options.outputName other ≠ name := by
  rintro rfl
  unfold Path.isMesh Path.extension? at hmesh
  rw [hname, Option.bind_some, splitExtension_outputName] at hmesh
  simp only at hmesh
  revert hmesh
  decide

end Options

namespace FileSystem

/-- A path whose last piece is a proper name. -/
def Leaf (input : Path) : Prop :=
  ∃ before name, input.pieces = before ++ [name.toList] ∧ IsName name

variable {fs : FileSystem}

/-- A path that leads to a file ends in the name of that file. -/
theorem leaf_of_locate (hfs : fs.Nested) {p : Path} {location : Location} {content : ByteArray}
    (h : fs.locate p = .ok (location, .file content)) : Leaf p := by
  obtain ⟨hcheck, hwalk, hlookup, hslash⟩ := (locate_eq_ok_iff fs p location _).mp h
  have hno : fs.lookup location ≠ some .directory := by
    rw [hlookup]
    simp
  obtain ⟨_, hne, _⟩ := (checkPath_eq_ok_iff p).mp hcheck
  rcases List.eq_nil_or_concat p.pieces with hnil | ⟨init, last, hconcat⟩
  · exact absurd hnil p.pieces_ne_nil
  rw [List.concat_eq_append] at hconcat
  have hlast : last ≠ [] := by
    rintro rfl
    by_cases hinit : init = []
    · rw [hinit] at hconcat
      exact hne (p.text_eq_empty_iff.mpr hconcat)
    · exact hno (hslash (Path.endsInSlash_of_concat hconcat hinit))
  have hname : String.ofList last ≠ "" :=
    fun heq => hlast (by simpa using congrArg String.toList heq)
  have hsingle := pieceNames_singleton hname
  rw [String.toList_ofList] at hsingle
  rw [names_eq, hconcat, pieceNames_append, hsingle, walk_concat_eq_enter, bind_eq_ok_iff] at hwalk
  obtain ⟨above, henter, hstep⟩ := hwalk
  have habove := ((enter_eq_ok_iff _ _ _ _).mp henter).2
  rw [step_of_directory habove] at hstep
  refine ⟨init, String.ofList last, by rw [hconcat, String.toList_ofList], hname, ?_, ?_, ?_⟩
  · intro hdot
    rw [if_pos hdot] at hstep
    cases hstep
    exact hno habove
  · intro hdots
    rw [if_neg (by simp [hdots]), if_pos hdots] at hstep
    cases hstep
    exact hno (hfs _ _ habove)
  · rw [String.toList_ofList]
    exact Path.not_mem_of_mem_pieces (hconcat ▸ List.mem_append_right init List.mem_cons_self)

section Scan

variable {root : Path} {recursive : Bool} {inputs : List Path}

/-- What there is to say about an input of a scan, and about two of them in one directory. -/
structure Inputs (fs : FileSystem) (inputs : List Path) : Prop where
  nodup : inputs.Nodup
  mesh : ∀ input ∈ inputs, input.isMesh = true
  leaf : ∀ input ∈ inputs, Leaf input
  found : ∀ input ∈ inputs, fs.locate input ≠ .error .notFound
  parent : ∀ a ∈ inputs, ∀ b ∈ inputs, ∀ above,
    fs.enter (fs.origin a.containingDirectory) (names a.containingDirectory) = .ok above →
    fs.enter (fs.origin b.containingDirectory) (names b.containingDirectory) = .ok above →
      a.parent? = b.parent?

theorem inputs_of_file (hfs : fs.Nested) {location : Location} {content : ByteArray}
    (h : fs.locate root = .ok (location, .file content)) (hmesh : root.isMesh = true) :
    Inputs fs [root] where
  nodup := by simp
  mesh := by simpa using hmesh
  leaf := by simpa using leaf_of_locate hfs h
  found := by simp [h]
  parent := by
    intro a ha b hb
    rw [List.mem_singleton.mp ha, List.mem_singleton.mp hb]
    exact fun _ _ _ => rfl

/-- The path that a scan gives to an entry of the system, if it looks at it and finds a file. -/
def scannedPath? (root : Path) (directory : Location) (recursive : Bool) (entry : Location × Node) :
    Option Path :=
  match entry.2, namesUnder directory entry.1 with
  | .file _, some names =>
    if names.length = 1 ∨ (recursive = true ∧ names ≠ []) then some (extendPath root names)
    else none
  | _, _ => none

theorem filesUnder_eq (fs : FileSystem) (root : Path) (directory : Location) (recursive : Bool) :
    fs.filesUnder root directory recursive =
      fs.nodes.filterMap (scannedPath? root directory recursive) := rfl

theorem scannedPath?_eq_some {directory location : Location} {node : Node} {input : Path}
    (h : scannedPath? root directory recursive (location, node) = some input) :
    ∃ ns content, ns ≠ [] ∧ input = extendPath root ns ∧ location = directory ++ ns ∧
      node = .file content := by
  unfold scannedPath? at h
  split at h
  · rename_i content ns hnode hunder
    split at h
    · rename_i hdepth
      cases h
      unfold namesUnder at hunder
      split at hunder
      · rename_i hprefix
        cases hunder
        obtain ⟨rest, hrest⟩ := List.isPrefixOf_iff_prefix.mp hprefix
        simp only at hrest hnode hdepth ⊢
        rw [← hrest, List.drop_left] at hdepth ⊢
        refine ⟨rest, content, ?_, rfl, rfl, hnode⟩
        rintro rfl
        simp at hdepth
      · cases hunder
    · cases h
  · cases h

/-- What an entry is that a scan of a tree gives a path. -/
theorem named_of_scannedPath? (hfs : fs.WellFormed) {directory : Location} {entry : Location × Node}
    (hentry : entry ∈ fs.nodes) {input : Path}
    (h : scannedPath? root directory recursive entry = some input) :
    ∃ init last content, (∀ n ∈ init ++ [last], IsName n) ∧
      input = extendPath root (init ++ [last]) ∧
      entry.1 = directory ++ (init ++ [last]) ∧ fs.lookup entry.1 = some (.file content) := by
  obtain ⟨location, node⟩ := entry
  obtain ⟨ns, content, hne, hinput, hlocation, rfl⟩ := scannedPath?_eq_some h
  rcases List.eq_nil_or_concat ns with hnil | ⟨init, last, hconcat⟩
  · exact absurd hnil hne
  rw [List.concat_eq_append] at hconcat
  rw [hconcat] at hinput hlocation
  refine ⟨init, last, content, fun n hn => ?_, hinput, hlocation, ?_⟩
  · exact hfs.named _ hentry n
      (by simp only [hlocation, List.mem_append]; exact .inr (List.mem_append.mp hn))
  · exact lookup_of_mem_nodes hfs hentry (by simp [hlocation])

/-- A walk down to something that is there may only be stopped by too long a name. -/
theorem walk_down (hfs : fs.Nested) {start : Location} {ns : List String} {node : Node}
    (hns : ∀ n ∈ ns, IsName n) (h : fs.lookup (start ++ ns) = some node) :
    fs.walk start ns = .ok (start ++ ns) ∨ fs.walk start ns = .error .nameTooLong := by
  induction ns generalizing start with
  | nil => exact .inl (by rw [List.append_nil]; rfl)
  | cons n ns ih =>
    obtain ⟨hn, hrest⟩ := List.forall_mem_cons.mp hns
    have hstart : fs.lookup start = some .directory := hfs.lookup_above h (by simp)
    rw [walk_cons, step_of_directory hstart, if_neg hn.2.1, if_neg hn.2.2.1]
    split
    · exact .inr rfl
    · have hcons : start ++ n :: ns = start ++ [n] ++ ns := by simp
      rw [hcons] at h ⊢
      exact ih hrest h

theorem locate_ne_notFound {p : Path} (hne : p.text ≠ "")
    (hwalk : fs.walk (fs.origin p) (names p) ≠ .error .notFound)
    (hlookup : ∀ location, fs.walk (fs.origin p) (names p) = .ok location →
      fs.lookup location ≠ none) :
    fs.locate p ≠ .error .notFound := by
  intro h
  unfold locate at h
  rcases (bind_eq_error_iff _ _ _).mp h with hcheck | ⟨_, _, h⟩
  · exact checkPath_ne_notFound hne hcheck
  · rcases (bind_eq_error_iff _ _ _).mp h with h | ⟨location, hlocation, h⟩
    · exact hwalk h
    · split at h
      · rename_i hnone
        exact hlookup location hlocation hnone
      · cases h
      · split at h <;> cases h

section Under

variable {directory : Location} {init : List String} {last : String}

theorem pieces_extendPath_concat (hns : ∀ n ∈ init ++ [last], IsName n) :
    (extendPath root (init ++ [last])).pieces =
      root.basePieces ++ init.map String.toList ++ [last.toList] := by
  rw [Path.pieces_extendPath hns (by simp), List.map_append, List.map_singleton, List.append_assoc]

theorem names_extendPath (hns : ∀ n ∈ init ++ [last], IsName n) :
    names (extendPath root (init ++ [last])) = names root ++ (init ++ [last]) := by
  rw [names_eq, Path.pieces_extendPath hns (by simp), pieceNames_append, Path.pieceNames_basePieces,
    pieceNames_map fun n hn => (hns n hn).1]

theorem origin_extendPath (hroot : root.text ≠ "") (hns : ∀ n ∈ init ++ [last], IsName n) :
    fs.origin (extendPath root (init ++ [last])) = fs.origin root := by
  rw [origin, origin, Path.isAbsolute_extendPath hroot hns]

/-- A scanned file is in the directory that the names before its own lead to,
from the scanned one. -/
theorem above_of_enter (hlocate : fs.locate root = .ok (directory, .directory))
    (hns : ∀ n ∈ init ++ [last], IsName n) {above : Location}
    (h : fs.enter (fs.origin (extendPath root (init ++ [last])).containingDirectory)
      (names (extendPath root (init ++ [last])).containingDirectory) = .ok above) :
    above = directory ++ init := by
  obtain ⟨hcheck, hwalk, _⟩ := (locate_eq_ok_iff _ _ _ _).mp hlocate
  obtain ⟨_, hroot, _⟩ := (checkPath_eq_ok_iff root).mp hcheck
  have hlast : IsName last := hns last (List.mem_append_right init List.mem_cons_self)
  have hinit : ∀ n ∈ init, IsName n := fun n hn => hns n (List.mem_append_left [last] hn)
  rw [Path.enter_containingDirectory (pieces_extendPath_concat hns) hlast,
    origin_extendPath hroot hns, pieceNames_append, Path.pieceNames_basePieces,
    pieceNames_map fun n hn => (hinit n hn).1, enter_eq_ok_iff, walk_append, hwalk] at h
  exact eq_append_of_walk hinit h.1

theorem found_of_lookup (hfs : fs.Nested) (hlocate : fs.locate root = .ok (directory, .directory))
    (hns : ∀ n ∈ init ++ [last], IsName n) {node : Node}
    (h : fs.lookup (directory ++ (init ++ [last])) = some node) :
    fs.locate (extendPath root (init ++ [last])) ≠ .error .notFound := by
  obtain ⟨hcheck, hwalk, _⟩ := (locate_eq_ok_iff _ _ _ _).mp hlocate
  obtain ⟨_, hroot, _⟩ := (checkPath_eq_ok_iff root).mp hcheck
  have hlast : IsName last := hns last (List.mem_append_right init List.mem_cons_self)
  have hwalk' : fs.walk (fs.origin (extendPath root (init ++ [last])))
      (names (extendPath root (init ++ [last]))) = fs.walk directory (init ++ [last]) := by
    rw [origin_extendPath hroot hns, names_extendPath hns, walk_append, hwalk]
    rfl
  apply locate_ne_notFound (Path.text_ne_empty_of_pieces (pieces_extendPath_concat hns) hlast)
  · rw [hwalk']
    rcases walk_down hfs hns h with hdown | hdown <;> simp [hdown]
  · rw [hwalk']
    rcases walk_down hfs hns h with hdown | hdown
    · rw [hdown]
      rintro _ ⟨⟩
      simp [h]
    · simp [hdown]

end Under

theorem nodup_filesUnder (hfs : fs.WellFormed) (root : Path) (directory : Location)
    (recursive : Bool) :
    (fs.filesUnder root directory recursive).Nodup := by
  have hunique := List.pairwise_map.mp (List.nodup_iff_pairwise_ne.mp hfs.unique)
  rw [filesUnder_eq, List.nodup_iff_pairwise_ne, List.pairwise_filterMap]
  refine List.Pairwise.imp_of_mem ?_ hunique
  intro a b ha hb hne p hp q hq heq
  obtain ⟨init, last, _, hns, rfl, hlocation, _⟩ := named_of_scannedPath? hfs ha hp
  obtain ⟨init', last', _, hns', rfl, hlocation', _⟩ := named_of_scannedPath? hfs hb hq
  have hsame : (extendPath root (init ++ [last])).same (extendPath root (init' ++ [last'])) =
      true := by
    rw [heq, Path.same_self]
  rw [hlocation, hlocation', Path.eq_of_extendPath_same hns hns' hsame] at hne
  exact hne rfl

theorem inputs_of_directory (hfs : fs.WellFormed) {directory : Location}
    (h : fs.locate root = .ok (directory, .directory)) :
    Inputs fs
      (((fs.filesUnder root directory recursive).filter Path.isMesh).mergeSort Path.le) := by
  have hmem :
      ∀ input ∈ ((fs.filesUnder root directory recursive).filter Path.isMesh).mergeSort Path.le,
      input.isMesh = true ∧ ∃ entry ∈ fs.nodes,
        scannedPath? root directory recursive entry = some input := by
    intro input hinput
    obtain ⟨hinput, hmesh⟩ := List.mem_filter.mp (List.mem_mergeSort.mp hinput)
    exact ⟨hmesh, List.mem_filterMap.mp hinput⟩
  refine ⟨?_, fun input hinput => (hmem input hinput).1, ?_, ?_, ?_⟩
  · exact (List.mergeSort_perm _ _).nodup_iff.mpr
      ((nodup_filesUnder hfs root directory recursive).filter _)
  · intro input hinput
    obtain ⟨_, entry, hentry, hscan⟩ := hmem input hinput
    obtain ⟨init, last, _, hns, rfl, _⟩ := named_of_scannedPath? hfs hentry hscan
    exact ⟨_, last, pieces_extendPath_concat hns,
      hns last (List.mem_append_right init List.mem_cons_self)⟩
  · intro input hinput
    obtain ⟨_, entry, hentry, hscan⟩ := hmem input hinput
    obtain ⟨init, last, _, hns, rfl, hlocation, hlookup⟩ := named_of_scannedPath? hfs hentry hscan
    rw [hlocation] at hlookup
    exact found_of_lookup hfs.nested' h hns hlookup
  · intro a ha b hb above henter henter'
    obtain ⟨_, entry, hentry, hscan⟩ := hmem a ha
    obtain ⟨_, entry', hentry', hscan'⟩ := hmem b hb
    obtain ⟨init, last, _, hns, rfl, _⟩ := named_of_scannedPath? hfs hentry hscan
    obtain ⟨init', last', _, hns', rfl, _⟩ := named_of_scannedPath? hfs hentry' hscan'
    have habove := above_of_enter h hns henter
    have habove' := above_of_enter h hns' henter'
    have hinit : init = init' := List.append_cancel_left (habove.symm.trans habove')
    rw [Path.parent?_of_pieces (pieces_extendPath_concat hns)
        (hns last (List.mem_append_right init List.mem_cons_self)),
      Path.parent?_of_pieces (pieces_extendPath_concat hns')
        (hns' last' (List.mem_append_right init' List.mem_cons_self)), hinit]

theorem inputs_of_scan (hfs : fs.WellFormed) (h : fs.scan root recursive = .ok inputs) :
    Inputs fs inputs := by
  unfold scan at h
  split at h
  · cases h
  · rename_i hlocate
    cases h
    split
    · rename_i hmesh
      exact inputs_of_file hfs.nested' hlocate hmesh
    · exact ⟨List.nodup_nil, by simp, by simp, by simp, by simp⟩
  · rename_i hlocate
    cases h
    exact inputs_of_directory hfs hlocate

/-- A scan of a directory whose mesh files stand in the order of paths already. -/
theorem scan_of_pairwise (directory : Location) (hdirectory : fs.isDirectory root = true)
    (hwalk : fs.walk (fs.origin root) (names root) = .ok directory)
    (hinputs : (fs.filesUnder root directory recursive).filter Path.isMesh = inputs)
    (hsorted : inputs.Pairwise fun a b => a.le b = true) : fs.scan root recursive = .ok inputs := by
  obtain ⟨hcheck, location, hfound, hlookup⟩ := (isDirectory_iff fs root).mp hdirectory
  rw [hwalk] at hfound
  cases hfound
  have hlocate : fs.locate root = .ok (directory, .directory) := by
    rw [locate_eq_ok_iff]
    exact ⟨hcheck, hwalk, hlookup, fun _ => hlookup⟩
  rw [scan, hlocate]
  simp only [hinputs]
  rw [List.mergeSort_of_pairwise hsorted]

end Scan

end FileSystem

end CollisionMesh
