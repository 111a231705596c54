import CollisionMesh.Proofs.PathJoin

/-!
# Components of joined and of parted paths

A proper name that is joined to a path is one more component of it, and the parent of a path with a
file name has all components but that name.
-/

namespace CollisionMesh.Path

set_option autoImplicit false

open FileSystem

section Join

variable {root : Path} {ns ms : List String}

theorem components_join (p : Path) {n : String} (hn : IsName n) :
    (p.join ⟨n⟩).components = p.components ++ [.name n] := by
  have hlast : Component.ofPiece? n.toList = some (.name n) := Component.ofPiece?_of_isName hn
  by_cases hempty : p.text = ""
  · have hpieces : (p.join ⟨n⟩).pieces = [n.toList] := by
      rw [pieces_join p hn, basePieces, if_pos hempty, List.nil_append]
    have hdot : n.toList ≠ ['.'] := fun h => hn.2.1 (String.toList_inj.mp h)
    have hp : p.components = [] := by
      rw [components, p.text_eq_empty_iff.mp hempty, isAbsolute, hempty]
      rfl
    rw [hp, components, hpieces, isAbsolute_of_pieces_singleton hpieces]
    simp only [firstComponent?, hdot, Bool.false_eq_true, if_false, hlast, Option.toList_some,
      List.filterMap_nil, List.append_nil, List.nil_append]
  · obtain ⟨hne, more, hmore⟩ := exists_basePieces hempty
    obtain ⟨first, rest, hbase⟩ := List.exists_cons_of_ne_nil hne
    have hrest : more.filterMap Component.ofPiece? = [] := by
      by_cases hslash : p.endsInSlash = true
      · obtain ⟨init, _, hpieces⟩ := pieces_of_endsInSlash hslash
        rw [basePieces, if_neg hempty, if_pos hslash, hpieces, List.dropLast_concat] at hmore
        rw [← List.append_cancel_left hmore]
        rfl
      · rw [basePieces, if_neg hempty, if_neg hslash] at hmore
        rw [List.self_eq_append_right.mp hmore]
        rfl
    rw [components, components, pieces_join p hn, hmore, hbase, isAbsolute_join hempty hn]
    simp only [List.cons_append, List.filterMap_append, hrest, List.append_nil,
      List.filterMap_cons_some hlast, List.filterMap_nil, List.append_assoc]

theorem components_extendPath (hns : ∀ n ∈ ns, IsName n) :
    (extendPath root ns).components = root.components ++ ns.map Component.name := by
  induction ns using List.reverseRecOn with
  | nil => exact (List.append_nil _).symm
  | append_singleton ns n ih =>
    have hn : IsName n := hns n (List.mem_append_right ns List.mem_cons_self)
    rw [extendPath_concat, components_join _ hn, ih fun m hm => hns m (List.mem_append_left [n] hm),
      List.map_append, List.map_singleton, List.append_assoc]

theorem eq_of_extendPath_same (hns : ∀ n ∈ ns, IsName n) (hms : ∀ m ∈ ms, IsName m)
    (h : (extendPath root ns).same (extendPath root ms) = true) : ns = ms := by
  rw [same, beq_iff_eq, components_extendPath hns, components_extendPath hms] at h
  exact (List.map_inj_right fun _ _ => Component.name.inj).mp (List.append_cancel_left h)

end Join

section Parent

variable {name : String}

theorem filterMap_dropTrailing (pieces : List (List Char)) :
    (dropTrailing pieces).filterMap Component.ofPiece? = pieces.filterMap Component.ofPiece? := by
  obtain ⟨dropped, hpieces, hdropped⟩ := exists_dropTrailing_append pieces
  conv => rhs; rw [hpieces]
  rw [List.filterMap_append, List.filterMap_eq_nil_iff.mpr hdropped, List.append_nil]

theorem isAbsolute_of_pieces_cons {p : Path} {first : List Char} {rest : List (List Char)}
    (h : p.pieces = first :: rest) (hrest : first = [] → rest ≠ []) :
    p.isAbsolute = first.isEmpty := by
  rw [Bool.eq_iff_iff, isAbsolute_iff, h, List.isEmpty_iff]
  constructor
  · rintro ⟨_, _, heq⟩
    exact (List.cons.inj heq).1
  · rintro rfl
    exact ⟨rest, hrest rfl, rfl⟩

/-- The directory above some pieces has the components of these pieces. -/
theorem components_directoryOf {first : List Char} {rest : List (List Char)}
    (h : ∀ piece ∈ first :: rest, '/' ∉ piece) :
    (directoryOf (first :: rest)).components =
      (firstComponent? first.isEmpty first).toList ++ rest.filterMap Component.ofPiece? := by
  rw [← filterMap_dropTrailing rest]
  rcases directoryOf_cons h with ⟨rfl, hkept, hroot⟩ | ⟨hkept, hpieces⟩
  · rw [hroot, hkept]
    decide
  · have habsolute := isAbsolute_of_pieces_cons hpieces fun hfirst => hkept hfirst
    rw [components, hpieces, habsolute]

/-- A path with a file name has a parent, and this name is the one component
that the parent has not. -/
theorem exists_parent_of_fileName? {p : Path} (h : p.fileName? = some name) :
    ∃ parent, p.parent? = some parent ∧ p.components = parent.components ++ [.name name] := by
  obtain ⟨before, hsplit, hname, hslash⟩ := exists_splitLast?_of_fileName? h
  refine ⟨directoryOf before, parent?_of_splitLast? hsplit, ?_⟩
  have hlast : Component.ofPiece? name.toList = some (.name name) :=
    Component.ofPiece?_of_isName hname
  obtain ⟨first, rest, hpieces⟩ := List.exists_cons_of_ne_nil p.pieces_ne_nil
  rw [splitLast?, hpieces] at hsplit
  simp only at hsplit
  rw [components, hpieces]
  simp only
  rw [← filterMap_dropTrailing rest]
  split at hsplit
  · rename_i last init hreverse
    obtain ⟨rfl, rfl⟩ := Prod.mk.inj (Option.some.inj hsplit)
    have hkept : dropTrailing rest = init.reverse ++ [name.toList] := by
      rw [← List.reverse_cons, ← hreverse, List.reverse_reverse]
    have hrest : first = [] → rest ≠ [] := by
      rintro - rfl
      rw [dropTrailing] at hkept
      simp at hkept
    rw [components_directoryOf hslash, isAbsolute_of_pieces_cons hpieces hrest, hkept,
      List.filterMap_append, List.filterMap_cons_some hlast, List.filterMap_nil, List.append_assoc]
  · rename_i hreverse
    split at hsplit
    · cases hsplit
    · obtain ⟨rfl, rfl⟩ := Prod.mk.inj (Option.some.inj hsplit)
      have hne : name.toList ≠ [] := mt String.toList_eq_nil_iff.mp hname.1
      have hdot : name.toList ≠ ['.'] := fun hdot => hname.2.1 (String.toList_inj.mp hdot)
      have habsolute : p.isAbsolute = false := by
        rw [isAbsolute_of_pieces_cons hpieces fun hnil => absurd hnil hne]
        simpa using hne
      rw [List.reverse_eq_nil_iff.mp hreverse, habsolute, firstComponent?, if_neg (by simp),
        if_neg hdot, hlast]
      rfl

end Parent

end CollisionMesh.Path
