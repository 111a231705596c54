import CollisionMesh.FileSystem
import Mathlib.Data.List.TakeWhile

/-!
# Paths by their pieces

A path is its pieces between slashes. What is above its last name, what that name is and which
names a walk takes are told from the pieces here, so that paths which differ in their last
piece only can be compared.
-/

namespace CollisionMesh

set_option autoImplicit false

theorem not_mem_of_mem_splitOn {α : Type} [DecidableEq α] {separator : α} {xs piece : List α}
    (h : piece ∈ xs.splitOn separator) : separator ∉ piece := by
  induction xs generalizing piece with
  | nil =>
    rw [List.splitOn_nil, List.mem_singleton] at h
    rw [h]
    exact List.not_mem_nil
  | cons x xs ih =>
    rw [List.splitOn_cons_eq_if_modifyHead] at h
    split at h
    · rcases List.mem_cons.mp h with rfl | h
      · exact List.not_mem_nil
      · exact ih h
    · rename_i hx
      obtain ⟨first, rest, hsplit⟩ := List.exists_cons_of_ne_nil (List.splitOn_ne_nil separator xs)
      rw [hsplit] at ih h
      rcases List.mem_cons.mp h with rfl | h
      · have hne : separator ≠ x := fun heq => hx (by simp [heq])
        simp [hne, ih List.mem_cons_self]
      · exact ih (List.mem_cons_of_mem first h)

/-- Whether a text can be the name of a file or a directory. -/
def IsName (name : String) : Prop :=
  name ≠ "" ∧ name ≠ "." ∧ name ≠ ".." ∧ '/' ∉ name.toList

instance (name : String) : Decidable (IsName name) := inferInstanceAs (Decidable (_ ∧ _))

/-- The names that are no proper ones are short, apart from those with a slash. -/
theorem isName_of_long {name : String} (hlength : 2 < name.toList.length)
    (hslash : '/' ∉ name.toList) :
    IsName name := by
  have hlong : ∀ other : String, other.toList.length < 3 → name ≠ other := by
    rintro other hother rfl
    omega
  exact ⟨hlong "" (by decide), hlong "." (by decide), hlong ".." (by decide), hslash⟩

theorem Component.ofPiece?_of_isName {name : String} (h : IsName name) :
    ofPiece? name.toList = some (.name name) := by
  obtain ⟨hempty, hdot, hdots, _⟩ := h
  unfold ofPiece?
  split
  · rename_i hchars
    exact absurd (String.toList_eq_nil_iff.mp hchars) hempty
  · rename_i hchars
    exact absurd (String.toList_inj.mp hchars) hdot
  · rename_i hchars
    exact absurd (String.toList_inj.mp hchars) hdots
  · rw [String.ofList_toList]

theorem Component.eq_of_ofPiece?_eq_name {piece : List Char} {name : String}
    (h : ofPiece? piece = some (.name name)) :
    piece = name.toList ∧ name ≠ "" ∧ name ≠ "." ∧ name ≠ ".." := by
  unfold ofPiece? at h
  split at h
  · cases h
  · cases h
  · cases h
  · rename_i hempty hdot hdots
    cases h
    refine ⟨String.toList_ofList.symm, ?_, ?_, ?_⟩
    · intro h
      exact hempty (by simpa using congrArg String.toList h)
    · intro h
      exact hdot (by simpa using congrArg String.toList h)
    · intro h
      exact hdots (by simpa using congrArg String.toList h)

namespace Path

theorem ext_text {p q : Path} (h : p.text = q.text) : p = q := by
  cases p
  cases q
  exact congrArg Path.mk h

theorem pieces_ne_nil (p : Path) : p.pieces ≠ [] := List.splitOn_ne_nil _ _

theorem intercalate_pieces (p : Path) : ['/'].intercalate p.pieces = p.text.toList :=
  List.intercalate_splitOn '/'

theorem pieces_ofPieces {pieces : List (List Char)} (hne : pieces ≠ [])
    (h : ∀ piece ∈ pieces, '/' ∉ piece) : (ofPieces pieces).pieces = pieces := by
  rw [Path.pieces, ofPieces, String.toList_ofList, List.splitOn_intercalate '/' h hne]

theorem not_mem_of_mem_pieces {p : Path} {piece : List Char} (h : piece ∈ p.pieces) : '/' ∉ piece :=
  not_mem_of_mem_splitOn h

/-- An absolute path is one whose first piece, of several, is empty. -/
theorem isAbsolute_iff (p : Path) :
    p.isAbsolute = true ↔ ∃ rest, rest ≠ [] ∧ p.pieces = [] :: rest := by
  rw [isAbsolute, beq_iff_eq]
  constructor
  · intro h
    obtain ⟨tail, htail⟩ := List.head?_eq_some_iff.mp h
    refine ⟨tail.splitOn '/', List.splitOn_ne_nil _ _, ?_⟩
    rw [pieces, htail]
    exact List.splitOn_append_cons_self_of_not_mem (List.not_mem_nil) tail
  · rintro ⟨rest, hrest, hpieces⟩
    have htext := intercalate_pieces p
    rw [hpieces, List.intercalate_cons_of_ne_nil hrest] at htext
    rw [← htext]
    rfl

theorem isAbsolute_of_pieces_singleton {p : Path} {piece : List Char} (h : p.pieces = [piece]) :
    p.isAbsolute = false := by
  rw [Bool.eq_false_iff]
  intro habsolute
  obtain ⟨rest, hrest, hpieces⟩ := p.isAbsolute_iff.mp habsolute
  rw [hpieces] at h
  exact hrest (List.cons.inj h).2

theorem pieces_of_endsInSlash {p : Path} (h : p.endsInSlash = true) :
    ∃ init, p.text.toList = init ++ ['/'] ∧ p.pieces = init.splitOn '/' ++ [[]] := by
  rw [endsInSlash, beq_iff_eq] at h
  obtain ⟨init, hinit⟩ := List.getLast?_eq_some_iff.mp h
  refine ⟨init, hinit, ?_⟩
  rw [pieces, hinit]
  exact List.splitOn_append_cons_self init []

theorem text_eq_empty_iff (p : Path) : p.text = "" ↔ p.pieces = [[]] := by
  constructor
  · intro h
    rw [pieces, h]
    rfl
  · intro h
    have htext := intercalate_pieces p
    rw [h] at htext
    exact String.toList_eq_nil_iff.mp htext.symm

/-- The path of the directory above a name that stands after the given pieces. -/
def directoryOf : List (List Char) → Path
  | [] => ⟨""⟩
  | first :: rest =>
    match dropTrailing rest with
    | [] => if first.isEmpty then ⟨"/"⟩ else ofPieces [first]
    | rest => ofPieces (first :: rest)

theorem parent?_of_splitLast? {p : Path} {before : List (List Char)} {last : List Char}
    (h : p.splitLast? = some (before, last)) : p.parent? = some (directoryOf before) := by
  rw [parent?, h, Option.map_some]
  cases before <;> rfl

theorem dropTrailing_append_of_isSome {piece : List Char}
    (h : (Component.ofPiece? piece).isSome = true) (pieces : List (List Char)) :
    dropTrailing (pieces ++ [piece]) = pieces ++ [piece] := by
  have hnone : (Component.ofPiece? piece).isNone = false := by simpa using h
  rw [dropTrailing, List.reverse_append, List.reverse_singleton, List.singleton_append,
    List.dropWhile_cons_of_neg (by simp [hnone]), ← List.singleton_append, List.reverse_append,
    List.reverse_reverse, List.reverse_singleton]

/-- What `dropTrailing` drops are pieces without component. -/
theorem exists_dropTrailing_append (pieces : List (List Char)) :
    ∃ dropped, pieces = dropTrailing pieces ++ dropped ∧
      ∀ piece ∈ dropped, Component.ofPiece? piece = none := by
  refine ⟨(pieces.reverse.takeWhile fun piece => (Component.ofPiece? piece).isNone).reverse, ?_, ?_⟩
  · rw [dropTrailing, ← List.reverse_append, List.takeWhile_append_dropWhile, List.reverse_reverse]
  · intro piece hpiece
    have hnone := List.mem_takeWhile_imp (List.mem_reverse.mp hpiece)
    exact Option.isNone_iff_eq_none.mp hnone

theorem isSome_of_dropTrailing_eq {pieces init : List (List Char)} {last : List Char}
    (h : dropTrailing pieces = init ++ [last]) : (Component.ofPiece? last).isSome = true := by
  have hreverse := congrArg List.reverse h
  rw [dropTrailing, List.reverse_reverse, List.reverse_append, List.reverse_singleton,
    List.singleton_append] at hreverse
  have hhead :=
    List.head?_dropWhile_not (fun piece => (Component.ofPiece? piece).isNone) pieces.reverse
  rw [hreverse] at hhead
  simpa using hhead

theorem dropTrailing_isPrefix (pieces : List (List Char)) : dropTrailing pieces <+: pieces := by
  obtain ⟨dropped, hdropped, _⟩ := exists_dropTrailing_append pieces
  exact ⟨dropped, hdropped.symm⟩

theorem splitLast?_of_pieces {p : Path} {before : List (List Char)} {last : List Char}
    (h : p.pieces = before ++ [last]) (hlast : (Component.ofPiece? last).isSome = true) :
    p.splitLast? = some (before, last) := by
  unfold splitLast?
  rw [h]
  cases before with
  | nil =>
    have hempty : last.isEmpty = false := by
      cases last with
      | nil => cases hlast
      | cons c cs => rfl
    simp [dropTrailing, hempty]
  | cons first rest =>
    rw [List.cons_append]
    simp only [dropTrailing_append_of_isSome hlast, List.reverse_append, List.reverse_singleton,
      List.singleton_append, List.reverse_reverse]

section Leaf

variable {p : Path} {before : List (List Char)} {name : String}

theorem isSome_ofPiece?_of_isName (hname : IsName name) :
    (Component.ofPiece? name.toList).isSome = true := by
  rw [Component.ofPiece?_of_isName hname]
  rfl

theorem parent?_of_pieces (h : p.pieces = before ++ [name.toList]) (hname : IsName name) :
    p.parent? = some (directoryOf before) :=
  parent?_of_splitLast? (splitLast?_of_pieces h (isSome_ofPiece?_of_isName hname))

theorem fileName?_of_pieces (h : p.pieces = before ++ [name.toList]) (hname : IsName name) :
    p.fileName? = some name := by
  have hpiece := Component.ofPiece?_of_isName hname
  unfold fileName? components
  rw [h]
  cases before with
  | nil =>
    have habsolute := isAbsolute_of_pieces_singleton h
    have hdot : name.toList ≠ ['.'] := fun hdot => hname.2.1 (String.toList_inj.mp hdot)
    simp [habsolute, firstComponent?, hdot, hpiece]
  | cons first rest => simp [List.filterMap_append, hpiece]

theorem endsInSlash_of_pieces (h : p.pieces = before ++ [name.toList]) (hname : IsName name) :
    p.endsInSlash = false := by
  rw [Bool.eq_false_iff]
  intro hslash
  obtain ⟨init, _, hpieces⟩ := pieces_of_endsInSlash hslash
  have hlast := (List.append_singleton_inj.mp (h.symm.trans hpieces)).2
  exact hname.1 (String.toList_eq_nil_iff.mp hlast)

theorem text_ne_empty_of_pieces (h : p.pieces = before ++ [name.toList]) (hname : IsName name) :
    p.text ≠ "" := by
  intro htext
  rw [p.text_eq_empty_iff] at htext
  rw [htext, ← List.nil_append [[]]] at h
  have hlast := (List.append_singleton_inj.mp h).2
  exact hname.1 (String.toList_eq_nil_iff.mp hlast.symm)

/-- A path with a file name is split before the piece of that name. -/
theorem exists_splitLast?_of_fileName? (h : p.fileName? = some name) :
    ∃ before, p.splitLast? = some (before, name.toList) ∧ IsName name ∧
      ∀ piece ∈ before, '/' ∉ piece := by
  obtain ⟨first, rest, hpieces⟩ := List.exists_cons_of_ne_nil p.pieces_ne_nil
  have hslash : ∀ piece ∈ first :: rest, '/' ∉ piece := by
    rw [← hpieces]
    exact fun piece => not_mem_of_mem_pieces
  obtain ⟨dropped, hrest, hdropped⟩ := exists_dropTrailing_append rest
  have hfilter : rest.filterMap Component.ofPiece? =
      (dropTrailing rest).filterMap Component.ofPiece? := by
    have hnil : dropped.filterMap Component.ofPiece? = [] := List.filterMap_eq_nil_iff.mpr hdropped
    conv => lhs; rw [hrest]
    rw [List.filterMap_append, hnil, List.append_nil]
  have hkept : ∀ piece ∈ dropTrailing rest, '/' ∉ piece := fun piece hpiece =>
    hslash piece (List.mem_cons_of_mem first ((dropTrailing_isPrefix rest).subset hpiece))
  unfold fileName? components at h
  rw [hpieces] at h
  unfold splitLast?
  rw [hpieces]
  simp only [hfilter] at h ⊢
  rcases List.eq_nil_or_concat (dropTrailing rest) with hnil | ⟨init, last, hconcat⟩
  · rw [hnil, List.filterMap_nil, List.append_nil] at h
    have hcomponent : firstComponent? p.isAbsolute first = some (.name name) := by
      generalize firstComponent? p.isAbsolute first = component? at h
      cases component? with
      | none => cases h
      | some component =>
        cases component <;> cases h
        rfl
    unfold firstComponent? at hcomponent
    split at hcomponent
    · cases hcomponent
    · split at hcomponent
      · cases hcomponent
      · obtain ⟨hfirst, hne⟩ := Component.eq_of_ofPiece?_eq_name hcomponent
        refine ⟨[], ?_, ⟨hne.1, hne.2.1, hne.2.2, ?_⟩, by simp⟩
        · simp [hnil, hfirst, hne.1]
        · exact hfirst ▸ hslash first List.mem_cons_self
  · rw [List.concat_eq_append] at hconcat
    obtain ⟨component, hcomponent⟩ :=
      Option.isSome_iff_exists.mp (isSome_of_dropTrailing_eq hconcat)
    rw [hconcat, List.filterMap_append, List.filterMap_cons_some hcomponent, List.filterMap_nil,
      ← List.append_assoc, List.getLast?_concat] at h
    cases component <;> cases h
    obtain ⟨hlast, hne⟩ := Component.eq_of_ofPiece?_eq_name hcomponent
    rw [hconcat] at hkept ⊢
    refine ⟨first :: init, by simp [hlast], ⟨hne.1, hne.2.1, hne.2.2, ?_⟩, ?_⟩
    · exact hlast ▸ hkept last (List.mem_append_right init List.mem_cons_self)
    · exact List.forall_mem_cons.mpr ⟨hslash first List.mem_cons_self, fun piece hpiece =>
        hkept piece (List.mem_append_left [last] hpiece)⟩

end Leaf

section Extensions

theorem splitExtension_append {stem extension : List Char} (hstem : stem ≠ [])
    (hextension : '.' ∉ extension) :
    splitExtension (stem ++ '.' :: extension) = (stem, some extension) := by
  have hpoint : ∀ c ∈ extension.reverse, (c != '.') = true := by
    intro c hc
    rw [bne_iff_ne]
    rintro rfl
    exact hextension (List.mem_reverse.mp hc)
  unfold splitExtension
  rw [List.reverse_append, List.reverse_cons, List.append_assoc, List.singleton_append,
    List.takeWhile_append_of_pos hpoint, List.dropWhile_append_of_pos hpoint,
    List.takeWhile_cons_of_neg (by simp), List.dropWhile_cons_of_neg (by simp)]
  simp only [List.append_nil, List.reverse_reverse, List.reverse_cons, List.dropLast_concat]

theorem splitExtension_fst_isPrefix (name : List Char) : (splitExtension name).1 <+: name := by
  unfold splitExtension
  split
  · exact List.prefix_rfl
  · refine (List.dropLast_prefix _).trans ?_
    rw [← List.reverse_suffix, List.reverse_reverse]
    exact List.dropWhile_suffix _

theorem splitExtension_fst_ne_nil {name : List Char} (h : name ≠ []) :
    (splitExtension name).1 ≠ [] := by
  unfold splitExtension
  split
  · exact h
  · rename_i hne
    exact hne

variable {p : Path} {extension : String}

/-- The path with another extension differs in its last piece only, which keeps its stem. -/
theorem pieces_withExtension {name : String} (h : p.fileName? = some name)
    (hextension : '/' ∉ extension.toList) :
    ∃ before, p.splitLast? = some (before, name.toList) ∧
      (p.withExtension extension).pieces =
        before ++ [(splitExtension name.toList).1 ++ '.' :: extension.toList] := by
  obtain ⟨before, hsplit, hname, hbefore⟩ := exists_splitLast?_of_fileName? h
  refine ⟨before, hsplit, ?_⟩
  have hstem : '/' ∉ (splitExtension name.toList).1 :=
    fun hmem => hname.2.2.2 ((splitExtension_fst_isPrefix name.toList).subset hmem)
  have hwith : p.withExtension extension =
      ofPieces (before ++ [(splitExtension name.toList).1 ++ '.' :: extension.toList]) := by
    simp [withExtension, fileStem?, h, hsplit]
  rw [hwith, pieces_ofPieces (by simp)]
  intro piece hpiece
  rcases List.mem_append.mp hpiece with hpiece | hpiece
  · exact hbefore piece hpiece
  · rw [List.mem_singleton.mp hpiece]
    simp [hstem, hextension]

theorem isName_withExtension {name : String} (hname : IsName name) (hne : extension ≠ "")
    (hextension : '/' ∉ extension.toList) :
    IsName (String.ofList ((splitExtension name.toList).1 ++ '.' :: extension.toList)) := by
  have hstem : '/' ∉ (splitExtension name.toList).1 :=
    fun hmem => hname.2.2.2 ((splitExtension_fst_isPrefix name.toList).subset hmem)
  have hstem_ne := splitExtension_fst_ne_nil (mt String.toList_eq_nil_iff.mp hname.1)
  have hlength := List.length_pos_iff.mpr hstem_ne
  have hlength' := List.length_pos_iff.mpr (mt String.toList_eq_nil_iff.mp hne)
  -- the stem, the point and the extension are three characters at least
  apply isName_of_long
  · rw [String.toList_ofList, List.length_append, List.length_cons]
    omega
  · simp [hstem, hextension]

theorem fileName?_withExtension {name : String} (h : p.fileName? = some name) (hne : extension ≠ "")
    (hextension : '/' ∉ extension.toList) :
    (p.withExtension extension).fileName? =
      some (String.ofList ((splitExtension name.toList).1 ++ '.' :: extension.toList)) := by
  obtain ⟨before, _, hpieces⟩ := pieces_withExtension h hextension
  obtain ⟨_, _, hname, _⟩ := exists_splitLast?_of_fileName? h
  exact fileName?_of_pieces (by rw [hpieces, String.toList_ofList])
    (isName_withExtension hname hne hextension)

theorem withExtension_of_fileName?_eq_none (h : p.fileName? = none) :
    p.withExtension extension = p := by
  simp [withExtension, fileStem?, h]

theorem parent?_withExtension (hne : extension ≠ "") (hextension : '/' ∉ extension.toList) :
    (p.withExtension extension).parent? = p.parent? := by
  cases h : p.fileName? with
  | none => rw [withExtension_of_fileName?_eq_none h]
  | some name =>
    obtain ⟨before, hsplit, hpieces⟩ := pieces_withExtension h hextension
    obtain ⟨_, _, hname, _⟩ := exists_splitLast?_of_fileName? h
    rw [parent?_of_splitLast? hsplit]
    exact parent?_of_pieces (by rw [hpieces, String.toList_ofList])
      (isName_withExtension hname hne hextension)

theorem fileStem?_withExtension (hne : extension ≠ "") (hextension : '/' ∉ extension.toList)
    (hpoint : '.' ∉ extension.toList) : (p.withExtension extension).fileStem? = p.fileStem? := by
  cases h : p.fileName? with
  | none => rw [withExtension_of_fileName?_eq_none h]
  | some name =>
    obtain ⟨_, _, hname, _⟩ := exists_splitLast?_of_fileName? h
    have hstem_ne := splitExtension_fst_ne_nil (mt String.toList_eq_nil_iff.mp hname.1)
    rw [fileStem?, fileStem?, h, fileName?_withExtension h hne hextension, Option.map_some,
      Option.map_some, String.toList_ofList, splitExtension_append hstem_ne hpoint]

end Extensions

end Path

end CollisionMesh
