import CollisionMesh.Surface.Source

/-!
# Lines of generated text

Lines that are joined are found again in the text, as long as they have no line feed of their own.
-/

namespace CollisionMesh

set_option autoImplicit false

/-- The lines of a text, split at line feeds; the last one is what follows the last line feed. -/
def textLines (text : String) : List String := (text.toList.splitOn '\n').map String.ofList

theorem unlines_cons (line : String) (lines : List String) :
    unlines (line :: lines) = line ++ "\n" ++ unlines lines := by
  rw [unlines, List.map_cons, String.join_cons, unlines]

theorem textLines_unlines_append (line : String) (lines : List String) :
    textLines (unlines (line :: lines)) = textLines line ++ textLines (unlines lines) := by
  have htext : (unlines (line :: lines)).toList =
      line.toList ++ '\n' :: (unlines lines).toList := by
    simp [unlines_cons]
  rw [textLines, htext, List.splitOn_append_cons_self, List.map_append, textLines, textLines]

theorem textLines_of_not_mem {line : String} (h : '\n' ∉ line.toList) :
    textLines line = [line] := by
  rw [textLines, List.splitOn_eq_singleton h, List.map_singleton, String.ofList_toList]

theorem textLines_unlines_cons {line : String} (h : '\n' ∉ line.toList) (lines : List String) :
    textLines (unlines (line :: lines)) = line :: textLines (unlines lines) := by
  rw [textLines_unlines_append, textLines_of_not_mem h, List.singleton_append]

/-- A line is found in the text whatever the other lines hold. -/
theorem mem_textLines_unlines {line : String} {lines : List String} (hmem : line ∈ lines)
    (h : '\n' ∉ line.toList) : line ∈ textLines (unlines lines) := by
  induction lines with
  | nil => cases hmem
  | cons first lines ih =>
    rw [textLines_unlines_append]
    rcases List.mem_cons.mp hmem with rfl | hmem
    · exact List.mem_append_left _ (by simp [textLines_of_not_mem h])
    · exact List.mem_append_right _ (ih hmem)

namespace SurfaceArray

def sourceLine (name : String) : String := "// Source: " ++ name

def linesBelow (array : SurfaceArray) : List String :=
  ["// Surfaces: " ++ array.records.length.repr, ""] ++ array.includeLines ++
    array.definitionLines ++ [array.countLine]

theorem textLines_source {array : SurfaceArray} {name : String}
    (hname : array.sourceName = some name) (h : '\n' ∉ name.toList) :
    textLines array.source =
      generatedBanner :: sourceLine name :: textLines (unlines array.linesBelow) := by
  have hlines : array.lines = generatedBanner :: sourceLine name :: array.linesBelow := by
    simp [lines, bannerLines, hname, linesBelow, sourceLine]
  have hline : '\n' ∉ (sourceLine name).toList := by
    rw [sourceLine, String.toList_append, List.mem_append, not_or]
    exact ⟨by decide, h⟩
  rw [source, hlines, textLines_unlines_cons (by decide), textLines_unlines_cons hline]

theorem linesBelow_mk (symbol : String) (name other : Option String) (includes : List String)
    (records : List SurfaceRecord) :
    linesBelow ⟨symbol, name, includes, records⟩ =
      linesBelow ⟨symbol, other, includes, records⟩ := by
  rfl

/-- Files that differ in the name of their source alone differ in the line of that name alone. -/
theorem textLines_source_eq (array other : SurfaceArray) {name otherName : String}
    (hname : array.sourceName = some name) (hother : other.sourceName = some otherName)
    (h : '\n' ∉ name.toList) (h' : '\n' ∉ otherName.toList)
    (hbelow : array.linesBelow = other.linesBelow) :
    (textLines array.source)[1]? = some (sourceLine name) ∧
      (textLines other.source)[1]? = some (sourceLine otherName) ∧
      (textLines array.source).eraseIdx 1 = (textLines other.source).eraseIdx 1 := by
  rw [textLines_source hname h, textLines_source hother h', hbelow]
  exact ⟨rfl, rfl, rfl⟩

end SurfaceArray

end CollisionMesh
