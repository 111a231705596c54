import CollisionMesh.Mesh.Reader
import CollisionMesh.Proofs.BlankText
import CollisionMesh.Proofs.Traversal
import Mathlib.Algebra.GroupWithZero.Nat
import Mathlib.Data.List.Basic

/-!
# What a mesh file declares

A reading of mesh files without steps. Each line is looked at for itself: it offends, or it declares
a vertex, a face or a material, or nothing. `declared` puts together what the lines of a file
declare: a face takes its material from the last `usemtl` line before it, and its relative
references from the number of vertices that the lines before it declare. Reading line by line comes
to the same, up to the first line that offends.
-/

namespace CollisionMesh.Mesh

set_option autoImplicit false

/-- A line of a file with its number. -/
abbrev Line := List UInt8 × Nat

/-- The line without the white space at its ends, if it is text at all. -/
def Line.content? (line : Line) : Option (List Char) :=
  (String.fromUTF8? line.1.toByteArray).map fun text => Text.trim text.toList

/-- The fields after a keyword, on lines that begin with it. -/
def fieldsAfter? (keyword : String) (content : List Char) : Option (List (List Char)) :=
  match Text.words content with
  | [] => none
  | first :: fields => if first = keyword.toList then some fields else none

/-- The whole number before the first slash of a token. -/
def leadingInteger? (token : List Char) : Option Int64 :=
  readInt64? (token.takeWhile fun c => c != '/')

/-- Whether the fields of a vertex line are at least three numbers and nothing else. -/
def IsPosition (fields : List (List Char)) : Prop :=
  3 ≤ fields.length ∧ ∀ field ∈ fields, (Binary64.ofText? field).isSome = true

instance (fields : List (List Char)) : Decidable (IsPosition fields) :=
  inferInstanceAs (Decidable (_ ∧ _))

/-- The first three fields of a vertex line whose fields are numbers. -/
def position? (fields : List (List Char)) : Option (Point Binary64) :=
  if IsPosition fields then
    match fields.filterMap Binary64.ofText? with
    | x :: y :: z :: _ => some ⟨x, y, z⟩
    | _ => none
  else none

/-- Whether nothing can be read from a line, whatever the other lines are. -/
def Line.Offends (policy : VertexPolicy) (line : Line) : Prop :=
  line.content? = none ∨
    ∃ content, line.content? = some content ∧
      ((∃ tokens, fieldsAfter? "f" content = some tokens ∧
          ∃ token ∈ tokens, leadingInteger? token = none) ∨
        fieldsAfter? "usemtl" content = some [] ∨
        policy = .fail ∧ ∃ fields, fieldsAfter? "v" content = some fields ∧
          (fields.length < 3 ∨ ∃ field ∈ fields, Binary64.ofText? field = none))

/-- The first field of a vertex line that is no number, or else how many fields there are. -/
def positionFault (fields : List (List Char)) : LineFault :=
  match fields.find? fun field => (Binary64.ofText? field).isNone with
  | some field => .invalidCoordinate (String.ofList field)
  | none => .missingCoordinates fields.length

/-- The first token of a face line that does not begin with a whole number. -/
def referenceFault (tokens : List (List Char)) : LineFault :=
  .invalidReference
    (String.ofList ((tokens.find? fun token => (leadingInteger? token).isNone).getD []))

def contentFault (content : List Char) : LineFault :=
  match fieldsAfter? "v" content, fieldsAfter? "f" content with
  | some fields, _ => positionFault fields
  | none, some tokens => referenceFault tokens
  | none, none => .unnamedMaterial

def Line.failure (path : Path) (line : Line) : Failure :=
  match line.content? with
  | none => .file path .invalidUtf8
  | some content => .malformedLine path line.2 (String.ofList content) (contentFault content)

/-- The fields of a vertex line. -/
def Line.vertexFields? (line : Line) : Option (List (List Char)) :=
  line.content?.bind (fieldsAfter? "v")

/-- The tokens of a face line. -/
def Line.faceTokens? (line : Line) : Option (List (List Char)) :=
  line.content?.bind (fieldsAfter? "f")

/-- The name on a material line: what follows the keyword, trimmed. -/
def Line.material? (line : Line) : Option String :=
  line.content?.bind fun content =>
    (fieldsAfter? "usemtl" content).map fun _ =>
      String.ofList (Text.trim (content.drop "usemtl".length))

def declaredVertices (lines : List Line) : List (Point Binary64) :=
  lines.filterMap fun line => line.vertexFields?.bind position?

/-- The material of the last material line, in force after these lines. -/
def materialInForce (lines : List Line) : Option String :=
  (lines.filterMap Line.material?).getLast?

/-- The index that a reference means behind so many vertices: a negative one
counts back from their end. -/
def declaredIndex (count : Nat) (reference : Int64) : Int64 :=
  if 0 ≤ reference.toInt then reference else Int64.ofInt (count + reference.toInt + 1)

/-- The face that a line declares behind the lines before it. -/
def declaredFace? (before : List Line) (line : Line) : Option Face :=
  line.faceTokens?.bind fun tokens =>
    if 3 ≤ tokens.length then
      some ⟨(tokens.filterMap leadingInteger?).map (declaredIndex (declaredVertices before).length),
        materialInForce before, line.2⟩
    else none

def declaredFaces (lines : List Line) : List Face :=
  (List.range lines.length).filterMap fun k => lines[k]?.bind (declaredFace? (lines.take k))

/-- The mesh that lines declare. -/
def declared (path : Path) (lines : List Line) : Mesh where
  path := path
  vertices := (declaredVertices lines).toArray
  faces := (declaredFaces lines).toArray
  skippedFaces := lines.countP fun line => line.faceTokens?.any fun tokens => tokens.length < 3
  skippedVertices :=
    lines.countP fun line => line.vertexFields?.any fun fields => !IsPosition fields

/-- Lines without line feed, with the numbers of lines, are the lines of a file. -/
theorem numberedLines_intercalate {bytes : List UInt8} {lines : List Line}
    (hnumbers : lines.map Prod.snd = (numberedLines bytes).map Prod.snd)
    (hfeed : ∀ line ∈ lines, '\n'.toUInt8 ∉ line.1) :
    numberedLines (['\n'.toUInt8].intercalate (lines.map Prod.fst)) = lines := by
  have hlength : lines.length = (bytes.splitOn '\n'.toUInt8).length := by
    simpa [numberedLines] using congrArg List.length hnumbers
  have hne : lines.map Prod.fst ≠ [] := by
    rw [← List.length_pos_iff, List.length_map, hlength, List.length_pos_iff]
    exact List.splitOn_ne_nil _ _
  have hsplit : (['\n'.toUInt8].intercalate (lines.map Prod.fst)).splitOn '\n'.toUInt8 =
      lines.map Prod.fst :=
    List.splitOn_intercalate _ (List.forall_mem_map.mpr hfeed) hne
  rw [numberedLines, List.zipIdx_map_snd, ← hlength] at hnumbers
  rw [numberedLines, hsplit, List.zipIdx_eq_zip_range', List.length_map]
  exact (List.zip_of_prod rfl hnumbers).symm

theorem declaredVertices_append (before lines : List Line) :
    declaredVertices (before ++ lines) = declaredVertices before ++ declaredVertices lines :=
  List.filterMap_append

theorem declaredVertices_snoc (before : List Line) (line : Line) :
    declaredVertices (before ++ [line]) =
      declaredVertices before ++ (line.vertexFields?.bind position?).toList := by
  rw [declaredVertices_append]
  cases h : line.vertexFields?.bind position? <;> simp [declaredVertices, h]

theorem materialInForce_append (before lines : List Line) :
    materialInForce (before ++ lines) = (materialInForce lines).or (materialInForce before) := by
  rw [materialInForce, List.filterMap_append, List.getLast?_append]
  rfl

theorem materialInForce_snoc (before : List Line) (line : Line) :
    materialInForce (before ++ [line]) = line.material?.or (materialInForce before) := by
  rw [materialInForce_append]
  cases h : line.material? <;> simp [materialInForce, h]

theorem declaredFaces_snoc (before : List Line) (line : Line) :
    declaredFaces (before ++ [line]) =
      declaredFaces before ++ (declaredFace? before line).toList := by
  have hearlier : ∀ k ∈ List.range before.length,
      (before ++ [line])[k]?.bind (declaredFace? ((before ++ [line]).take k)) =
        before[k]?.bind (declaredFace? (before.take k)) := by
    intro k hk
    have hk := List.mem_range.mp hk
    rw [List.getElem?_append_left hk, List.take_append_of_le_length (by omega)]
  rw [declaredFaces, List.length_append, List.length_singleton, List.range_succ,
    List.filterMap_append, List.filterMap_congr hearlier]
  cases h : declaredFace? before line <;> simp [declaredFaces, h]

theorem mem_declaredFaces_iff {lines : List Line} {face : Face} :
    face ∈ declaredFaces lines ↔
      ∃ before line after, lines = before ++ line :: after ∧
        declaredFace? before line = some face := by
  simp only [declaredFaces, List.mem_filterMap, List.mem_range]
  constructor
  · rintro ⟨k, hk, hface⟩
    rw [List.getElem?_eq_getElem hk, Option.bind_some] at hface
    refine ⟨lines.take k, lines[k], lines.drop (k + 1), ?_, hface⟩
    rw [List.getElem_cons_drop, List.take_append_drop]
  · rintro ⟨before, line, after, rfl, hface⟩
    refine ⟨before.length, by simp, ?_⟩
    rw [List.getElem?_append_right (Nat.le_refl _), Nat.sub_self, List.getElem?_cons_zero,
      Option.bind_some, List.take_left, hface]

theorem absoluteIndex_eq_declaredIndex (count : Nat) (reference : Int64) :
    absoluteIndex count reference = declaredIndex count reference := by
  have hlt : reference < 0 ↔ reference.toInt < 0 := Int64.lt_iff_toInt_lt
  unfold absoluteIndex declaredIndex
  by_cases h : reference < 0
  · have hneg := hlt.mp h
    rw [if_pos h, if_neg (by omega), Int64.ofInt_add, Int64.ofInt_add, Int64.ofInt_toInt]
    rfl
  · have hnonneg := mt hlt.mpr h
    rw [if_neg h, if_pos (by omega)]

/-- Nothing wraps while the vertices can be counted in 64 bits. -/
theorem toInt_declaredIndex {count : Nat} (hcount : count < 2 ^ 63) (reference : Int64) :
    (declaredIndex count reference).toInt =
      if 0 ≤ reference.toInt then reference.toInt else count + reference.toInt + 1 := by
  unfold declaredIndex
  split
  · rfl
  · have hle := reference.le_toInt
    rw [Int64.toInt_ofInt_of_le (by omega) (by omega)]

section Statements

variable {content : List Char} {fields tokens : List (List Char)}

theorem readCoordinate_eq_elim (field : List Char) :
    Statement.readCoordinate field =
      (Binary64.ofText? field).elim (.error (.invalidCoordinate (String.ofList field))) .ok := by
  unfold Statement.readCoordinate
  cases Binary64.ofText? field <;> rfl

theorem readReference_eq_elim (token : List Char) :
    Statement.readReference token =
      (leadingInteger? token).elim (.error (.invalidReference (String.ofList token))) .ok := by
  unfold Statement.readReference leadingInteger?
  cases readInt64? (token.takeWhile fun c => c != '/') <;> rfl

theorem position?_eq_none_iff (fields : List (List Char)) :
    position? fields = none ↔ ¬IsPosition fields := by
  unfold position?
  by_cases h : IsPosition fields
  · rw [if_pos h]
    have hlength : (fields.filterMap Binary64.ofText?).length = fields.length :=
      List.filterMap_length_eq_length.mpr h.2
    have h3 := h.1
    match hvalues : fields.filterMap Binary64.ofText? with
    | [] | [_] | [_, _] => simp [hvalues] at hlength; omega
    | x :: y :: z :: rest => simpa using h
  · simp [h]

theorem readPosition_eq_elim (fields : List (List Char)) :
    Statement.readPosition fields =
      (position? fields).elim (.error (positionFault fields)) .ok := by
  unfold Statement.readPosition positionFault
  rw [mapM_eq_of_elim readCoordinate_eq_elim]
  cases hfind : fields.find? fun field => (Binary64.ofText? field).isNone with
  | some field =>
    have hbad : ¬IsPosition fields := by
      intro h
      have hnone := List.find?_some hfind
      have hsome := h.2 field (List.mem_of_find?_eq_some hfind)
      rw [Option.isNone_iff_eq_none] at hnone
      simp [hnone] at hsome
    rw [(position?_eq_none_iff fields).mpr hbad]
    rfl
  | none =>
    have hall : ∀ field ∈ fields, (Binary64.ofText? field).isSome = true := by
      intro field hfield
      have := List.find?_eq_none.mp hfind field hfield
      simpa [Option.isSome_iff_ne_none] using this
    have hlength : (fields.filterMap Binary64.ofText?).length = fields.length :=
      List.filterMap_length_eq_length.mpr hall
    by_cases h3 : 3 ≤ fields.length
    · rw [position?, if_pos ⟨h3, hall⟩]
      match hvalues : fields.filterMap Binary64.ofText? with
      | [] | [_] | [_, _] => simp [hvalues] at hlength; omega
      | x :: y :: z :: rest => rfl
    · rw [position?, if_neg fun h => h3 h.1, ← hlength]
      match hvalues : fields.filterMap Binary64.ofText? with
      | [] | [_] | [_, _] => rfl
      | x :: y :: z :: rest => simp [hvalues] at hlength; omega

theorem mapM_readReference_eq (tokens : List (List Char)) :
    tokens.mapM Statement.readReference =
      if ∃ token ∈ tokens, leadingInteger? token = none then .error (referenceFault tokens)
      else .ok (tokens.filterMap leadingInteger?) := by
  rw [mapM_eq_of_elim readReference_eq_elim, referenceFault]
  cases hfind : tokens.find? fun token => (leadingInteger? token).isNone with
  | some token =>
    have hbad : ∃ token ∈ tokens, leadingInteger? token = none :=
      ⟨token, List.mem_of_find?_eq_some hfind, by simpa using List.find?_some hfind⟩
    rw [if_pos hbad]
    rfl
  | none =>
    rw [if_neg]
    · rfl
    · rintro ⟨token, htoken, hnone⟩
      simpa [hnone] using List.find?_eq_none.mp hfind token htoken

theorem fieldsAfter?_eq_some_iff {keyword : String} :
    fieldsAfter? keyword content = some fields ↔ Text.words content = keyword.toList :: fields := by
  unfold fieldsAfter?
  split
  · rename_i hwords
    simp [hwords]
  · rename_i first rest hwords
    rw [hwords]
    by_cases h : first = keyword.toList <;> simp [h]

theorem fieldsAfter?_eq_none {keyword : String} (h : fieldsAfter? keyword content = some fields)
    (other : String) (hne : keyword.toList ≠ other.toList) : fieldsAfter? other content = none := by
  unfold fieldsAfter?
  rw [fieldsAfter?_eq_some_iff.mp h]
  simp [hne]

theorem ofLine_of_vertex (h : fieldsAfter? "v" content = some fields) :
    Statement.ofLine content =
      (position? fields).elim (.malformedVertex (positionFault fields)) .vertex := by
  have hwords : Text.words content = ['v'] :: fields := fieldsAfter?_eq_some_iff.mp h
  unfold Statement.ofLine
  rw [hwords]
  simp only [if_true, readPosition_eq_elim]
  cases position? fields <;> rfl

theorem ofLine_of_face (h : fieldsAfter? "f" content = some tokens) :
    Statement.ofLine content =
      if ∃ token ∈ tokens, leadingInteger? token = none then .malformed (referenceFault tokens)
      else .face (tokens.filterMap leadingInteger?) := by
  have hwords : Text.words content = ['f'] :: tokens := fieldsAfter?_eq_some_iff.mp h
  have hv : ¬['f'] = ['v'] := by decide
  unfold Statement.ofLine
  rw [hwords]
  simp only [if_true, if_neg hv, mapM_readReference_eq]
  split
  · rename_i h
    split at h <;> simp_all
  · rename_i h
    split at h <;> simp_all

theorem ofLine_of_material {text : List Char} (hcontent : content = Text.trim text)
    (h : fieldsAfter? "usemtl" content = some fields) :
    Statement.ofLine content =
      if fields = [] then .malformed .unnamedMaterial
      else .material (String.ofList (Text.trim (content.drop "usemtl".length))) := by
  have hwords : Text.words content = "usemtl".toList :: fields := fieldsAfter?_eq_some_iff.mp h
  have hv : ¬"usemtl".toList = ['v'] := by decide
  have hf : ¬"usemtl".toList = ['f'] := by decide
  have htrim := Text.trim_drop_eq_nil_iff (hcontent ▸ hwords)
  rw [← hcontent] at htrim
  unfold Statement.ofLine
  rw [hwords]
  simp only [if_true, if_neg hv, if_neg hf]
  split
  · rename_i hnil
    rw [if_pos (htrim.mp hnil)]
  · rename_i hname
    rw [if_neg fun hfields => hname (htrim.mpr hfields)]
    rfl

theorem ofLine_of_other (hv : fieldsAfter? "v" content = none)
    (hf : fieldsAfter? "f" content = none) (hm : fieldsAfter? "usemtl" content = none) :
    Statement.ofLine content = .other := by
  unfold Statement.ofLine
  split
  · rfl
  · rename_i first fields hwords
    have hne {keyword : String} (h : fieldsAfter? keyword content = none) :
        ¬first = keyword.toList := by
      rintro rfl
      rw [fieldsAfter?_eq_some_iff.mpr hwords] at h
      cases h
    have hv : ¬first = ['v'] := hne hv
    have hf : ¬first = ['f'] := hne hf
    rw [if_neg hv, if_neg hf, if_neg (hne hm)]

end Statements

/-- What reading has come to behind lines none of which offends. -/
def readingOf (path : Path) (lines : List Line) : Reading :=
  ⟨declared path lines, materialInForce lines⟩

section Steps

variable {policy : VertexPolicy} {line : Line} {content : List Char}

theorem add_of_not_text (reading : Reading) (h : line.content? = none) :
    reading.add policy line = .error (.file reading.mesh.path .invalidUtf8) := by
  have htext : String.fromUTF8? line.1.toByteArray = none := by simpa [Line.content?] using h
  unfold Reading.add
  rw [htext]

theorem add_of_content (reading : Reading) (h : line.content? = some content) :
    reading.add policy line =
      reading.addStatement policy line.2 (String.ofList content) (Statement.ofLine content) := by
  obtain ⟨text, htext, rfl⟩ := Option.map_eq_some_iff.mp h
  unfold Reading.add
  rw [htext]

theorem exists_trim_of_content (h : line.content? = some content) :
    ∃ text, content = Text.trim text := by
  obtain ⟨text, _, rfl⟩ := Option.map_eq_some_iff.mp h
  exact ⟨_, rfl⟩

theorem offends_iff (h : line.content? = some content) :
    line.Offends policy ↔
      (∃ tokens, fieldsAfter? "f" content = some tokens ∧
          ∃ token ∈ tokens, leadingInteger? token = none) ∨
        fieldsAfter? "usemtl" content = some [] ∨
        policy = .fail ∧ ∃ fields, fieldsAfter? "v" content = some fields ∧ ¬IsPosition fields := by
  have hposition (fields : List (List Char)) : ¬IsPosition fields ↔
      fields.length < 3 ∨ ∃ field ∈ fields, Binary64.ofText? field = none := by
    simp only [IsPosition, not_and_or, Nat.not_le, not_forall, Option.not_isSome_iff_eq_none,
      exists_prop]
  simp [Line.Offends, h, hposition]

theorem readingOf_snoc (path : Path) (before : List Line) (line : Line) :
    readingOf path (before ++ [line]) =
      ⟨⟨path, (declaredVertices before ++ (line.vertexFields?.bind position?).toList).toArray,
          (declaredFaces before ++ (declaredFace? before line).toList).toArray,
          (declared path before).skippedFaces +
            if line.faceTokens?.any fun tokens => tokens.length < 3 then 1 else 0,
          (declared path before).skippedVertices +
            if line.vertexFields?.any fun fields => !IsPosition fields then 1 else 0⟩,
        line.material?.or (materialInForce before)⟩ := by
  simp only [readingOf, declared, declaredVertices_snoc, declaredFaces_snoc, materialInForce_snoc,
    List.countP_append, List.countP_singleton]

theorem add_of_vertex (path : Path) (before : List Line) (hcontent : line.content? = some content)
    {fields : List (List Char)} (hv : fieldsAfter? "v" content = some fields)
    (h : policy = .fail → IsPosition fields) :
    (readingOf path before).add policy line = .ok (readingOf path (before ++ [line])) := by
  have hV : line.vertexFields? = some fields := by simp [Line.vertexFields?, hcontent, hv]
  have hF : line.faceTokens? = none := by
    simp [Line.faceTokens?, hcontent, fieldsAfter?_eq_none hv "f" (by decide)]
  have hM : line.material? = none := by
    simp [Line.material?, hcontent, fieldsAfter?_eq_none hv "usemtl" (by decide)]
  rw [add_of_content _ hcontent, ofLine_of_vertex hv, readingOf_snoc]
  cases hposition : position? fields with
  | some position =>
    have hgood : IsPosition fields := by
      by_contra hbad
      rw [(position?_eq_none_iff fields).mpr hbad] at hposition
      cases hposition
    simp [Reading.addStatement, readingOf, declared, hV, hF, hM, hposition, hgood, declaredFace?]
  | none =>
    have hbad := (position?_eq_none_iff fields).mp hposition
    cases policy with
    | fail => exact absurd (h rfl) hbad
    | skip =>
      simp [Reading.addStatement, readingOf, declared, hV, hF, hM, hposition, hbad, declaredFace?]

theorem add_of_face (path : Path) (before : List Line) (hcontent : line.content? = some content)
    {tokens : List (List Char)} (hf : fieldsAfter? "f" content = some tokens)
    (h : ∀ token ∈ tokens, leadingInteger? token ≠ none) :
    (readingOf path before).add policy line = .ok (readingOf path (before ++ [line])) := by
  have hV : line.vertexFields? = none := by
    simp [Line.vertexFields?, hcontent, fieldsAfter?_eq_none hf "v" (by decide)]
  have hF : line.faceTokens? = some tokens := by simp [Line.faceTokens?, hcontent, hf]
  have hM : line.material? = none := by
    simp [Line.material?, hcontent, fieldsAfter?_eq_none hf "usemtl" (by decide)]
  have hgood : ¬∃ token ∈ tokens, leadingInteger? token = none := by
    rintro ⟨token, htoken, hnone⟩
    exact h token htoken hnone
  have hlength : (tokens.filterMap leadingInteger?).length = tokens.length :=
    List.filterMap_length_eq_length.mpr fun token htoken =>
      Option.isSome_iff_ne_none.mpr (h token htoken)
  rw [add_of_content _ hcontent, ofLine_of_face hf, if_neg hgood, readingOf_snoc]
  simp only [Reading.addStatement, hlength]
  by_cases h3 : tokens.length < 3
  · simp [readingOf, declared, hV, hF, hM, h3, declaredFace?, Nat.not_le.mpr h3]
  · simp [readingOf, declared, hV, hF, hM, h3, declaredFace?, Nat.not_lt.mp h3,
      absoluteIndex_eq_declaredIndex]

theorem add_of_material (path : Path) (before : List Line) (hcontent : line.content? = some content)
    {fields : List (List Char)} (hm : fieldsAfter? "usemtl" content = some fields)
    (h : fields ≠ []) :
    (readingOf path before).add policy line = .ok (readingOf path (before ++ [line])) := by
  obtain ⟨text, htext⟩ := exists_trim_of_content hcontent
  have hV : line.vertexFields? = none := by
    simp [Line.vertexFields?, hcontent, fieldsAfter?_eq_none hm "v" (by decide)]
  have hF : line.faceTokens? = none := by
    simp [Line.faceTokens?, hcontent, fieldsAfter?_eq_none hm "f" (by decide)]
  have hM : line.material? = some (String.ofList (Text.trim (content.drop "usemtl".length))) := by
    simp only [Line.material?, hcontent, hm, Option.bind_some, Option.map_some]
  rw [add_of_content _ hcontent, ofLine_of_material htext hm, if_neg h, readingOf_snoc, hM]
  simp [Reading.addStatement, readingOf, declared, hV, hF, declaredFace?]

theorem add_of_other (path : Path) (before : List Line) (hcontent : line.content? = some content)
    (hv : fieldsAfter? "v" content = none) (hf : fieldsAfter? "f" content = none)
    (hm : fieldsAfter? "usemtl" content = none) :
    (readingOf path before).add policy line = .ok (readingOf path (before ++ [line])) := by
  have hV : line.vertexFields? = none := by simp [Line.vertexFields?, hcontent, hv]
  have hF : line.faceTokens? = none := by simp [Line.faceTokens?, hcontent, hf]
  have hM : line.material? = none := by simp [Line.material?, hcontent, hm]
  rw [add_of_content _ hcontent, ofLine_of_other hv hf hm, readingOf_snoc]
  simp [Reading.addStatement, readingOf, declared, hV, hF, hM, declaredFace?]

/-- One line that does not offend adds what it declares. -/
theorem add_of_not_offends (path : Path) (before : List Line) (h : ¬line.Offends policy) :
    (readingOf path before).add policy line = .ok (readingOf path (before ++ [line])) := by
  cases hcontent : line.content? with
  | none => exact absurd (.inl hcontent) h
  | some content =>
    rw [offends_iff hcontent] at h
    push Not at h
    obtain ⟨hface, hmaterial, hvertex⟩ := h
    cases hv : fieldsAfter? "v" content with
    | some fields =>
      exact add_of_vertex path before hcontent hv fun hfail => hvertex hfail fields hv
    | none =>
      cases hf : fieldsAfter? "f" content with
      | some tokens => exact add_of_face path before hcontent hf (hface tokens hf)
      | none =>
        cases hm : fieldsAfter? "usemtl" content with
        | some fields =>
          exact add_of_material path before hcontent hm fun hnil => hmaterial (by rw [hm, hnil])
        | none => exact add_of_other path before hcontent hv hf hm

/-- One line that offends ends the reading with its failure. -/
theorem add_of_offends (path : Path) (before : List Line) (h : line.Offends policy) :
    (readingOf path before).add policy line = .error (line.failure path) := by
  cases hcontent : line.content? with
  | none => rw [add_of_not_text _ hcontent, Line.failure, hcontent]; rfl
  | some content =>
    obtain ⟨text, htext⟩ := exists_trim_of_content hcontent
    rw [add_of_content _ hcontent, Line.failure, hcontent]
    rcases (offends_iff hcontent).mp h with ⟨tokens, hf, hbad⟩ | hm | ⟨rfl, fields, hv, hbad⟩
    · rw [ofLine_of_face hf, if_pos hbad]
      simp [Reading.addStatement, contentFault, hf, fieldsAfter?_eq_none hf "v" (by decide)]
      rfl
    · rw [ofLine_of_material htext hm, if_pos rfl]
      simp [Reading.addStatement, contentFault, fieldsAfter?_eq_none hm "v" (by decide),
        fieldsAfter?_eq_none hm "f" (by decide)]
      rfl
    · rw [ofLine_of_vertex hv, (position?_eq_none_iff fields).mpr hbad]
      simp [Reading.addStatement, contentFault, hv]
      rfl

/-- What a run over lines comes to behind others: the first line that offends decides. -/
theorem foldlM_add_eq (policy : VertexPolicy) (path : Path) (before lines : List Line) :
    (∀ good bad rest, lines = good ++ bad :: rest → (∀ line ∈ good, ¬line.Offends policy) →
      bad.Offends policy →
      lines.foldlM (Reading.add policy) (readingOf path before) = .error (bad.failure path)) ∧
    ((∀ line ∈ lines, ¬line.Offends policy) →
      lines.foldlM (Reading.add policy) (readingOf path before) =
        .ok (readingOf path (before ++ lines))) := by
  induction lines generalizing before with
  | nil => exact ⟨fun good bad rest h => by simp at h, fun _ => by simp [pure, Except.pure]⟩
  | cons line lines ih =>
    rw [List.foldlM_cons]
    constructor
    · intro good bad rest hsplit hgood hbad
      cases good with
      | nil =>
        cases hsplit
        rw [add_of_offends path before hbad]
        rfl
      | cons first good =>
        cases hsplit
        rw [add_of_not_offends path before (hgood _ List.mem_cons_self)]
        exact (ih _).1 good bad rest rfl (fun l hl => hgood l (List.mem_cons_of_mem _ hl)) hbad
    · intro hgood
      rw [add_of_not_offends path before (hgood _ List.mem_cons_self)]
      refine Eq.trans ((ih _).2 fun l hl => hgood l (List.mem_cons_of_mem _ hl)) ?_
      rw [List.append_assoc]
      rfl

end Steps

theorem ofBytes_of_foldlM {policy : VertexPolicy} {path : Path} {bytes : List UInt8}
    {outcome : Except Failure Reading}
    (h : (numberedLines bytes).foldlM (Reading.add policy) (readingOf path []) = outcome) :
    ofBytes policy path bytes = outcome.map Reading.mesh := by
  unfold ofBytes
  change ((numberedLines bytes).foldlM (Reading.add policy) (readingOf path []) >>= _) = _
  rw [h]
  cases outcome <;> rfl

/-- A file that is read has no line that offends. -/
theorem not_offends_of_ofBytes {policy : VertexPolicy} {path : Path} {bytes : List UInt8}
    {mesh : Mesh} (h : ofBytes policy path bytes = .ok mesh) :
    ∀ line ∈ numberedLines bytes, ¬Line.Offends policy line := by
  classical
  intro line hline hoffends
  obtain ⟨first, hfirst⟩ : ∃ first,
      (numberedLines bytes).find? (fun line => Line.Offends policy line) = some first := by
    rw [← Option.isSome_iff_exists, List.find?_isSome]
    exact ⟨line, hline, decide_eq_true hoffends⟩
  obtain ⟨hfound, before, after, hsplit, hbefore⟩ := List.find?_eq_some_iff_append.mp hfirst
  have hbad := (foldlM_add_eq policy path [] (numberedLines bytes)).1 before first after hsplit
    (by simpa using hbefore) (by simpa using hfound)
  rw [ofBytes_of_foldlM hbad] at h
  cases h

theorem eq_declared_of_ofBytes {policy : VertexPolicy} {path : Path} {bytes : List UInt8}
    {mesh : Mesh} (h : ofBytes policy path bytes = .ok mesh) :
    mesh = declared path (numberedLines bytes) := by
  have hgood := (foldlM_add_eq policy path [] (numberedLines bytes)).2 (not_offends_of_ofBytes h)
  rw [ofBytes_of_foldlM hgood] at h
  exact (Except.ok.inj h).symm

theorem path_of_add {policy : VertexPolicy} {reading next : Reading} {line : Line}
    (h : reading.add policy line = .ok next) : next.mesh.path = reading.mesh.path := by
  unfold Reading.add at h
  split at h
  · cases h
  · simp only [Reading.addStatement] at h
    split at h
    · cases h
      rfl
    · cases h
      rfl
    · cases policy <;> cases h
      rfl
    · split at h <;> cases h <;> rfl
    · cases h
      rfl
    · cases h

/-- A mesh keeps the path that it was read from. -/
theorem path_of_load {fs : FileSystem} {policy : VertexPolicy} {input : Path} {mesh : Mesh}
    (h : Mesh.load fs policy input = .ok mesh) : mesh.path = input := by
  obtain ⟨content, _, h⟩ := (bind_eq_ok_iff _ _ _).mp h
  obtain ⟨reading, hfold, h⟩ := (bind_eq_ok_iff _ _ _).mp h
  cases h
  have hrun : ∀ (lines : List Line) (start : Reading),
      lines.foldlM (Reading.add policy) start = .ok reading →
      reading.mesh.path = start.mesh.path := by
    intro lines
    induction lines with
    | nil =>
      intro start hstart
      cases hstart
      rfl
    | cons line lines ih =>
      intro start hstart
      rw [List.foldlM_cons, bind_eq_ok_iff] at hstart
      obtain ⟨next, hnext, hrest⟩ := hstart
      exact (ih next hrest).trans (path_of_add hnext)
  exact hrun _ _ hfold

/-- Reading a file is the failure of its first offending line, whatever follows it, and without
offending line the mesh that its lines declare. Relative references are exact as long as the
vertices can be counted. -/
theorem ofBytes_eq_declared (policy : VertexPolicy) (path : Path) (bytes : List UInt8) :
    (∀ (before after : List Line) (line : Line),
      (bytes.splitOn '\n'.toUInt8).zipIdx 1 = before ++ line :: after →
      (∀ earlier ∈ before, ¬earlier.Offends policy) → line.Offends policy →
      ofBytes policy path bytes = .error (line.failure path)) ∧
    ((∀ line : Line, line ∈ (bytes.splitOn '\n'.toUInt8).zipIdx 1 → ¬line.Offends policy) →
      ofBytes policy path bytes =
        .ok (declared path ((bytes.splitOn '\n'.toUInt8).zipIdx 1))) ∧
    (∀ (count : Nat) (reference : Int64), count < 2 ^ 63 →
      (declaredIndex count reference).toInt =
        if 0 ≤ reference.toInt then reference.toInt else count + reference.toInt + 1) := by
  obtain ⟨hbad, hgood⟩ := foldlM_add_eq policy path [] (numberedLines bytes)
  refine ⟨?_, ?_, fun count reference hcount => toInt_declaredIndex hcount reference⟩
  · intro before after line hsplit hbefore hline
    exact ofBytes_of_foldlM (hbad before line after hsplit hbefore hline)
  · intro hlines
    exact ofBytes_of_foldlM (hgood hlines)

end CollisionMesh.Mesh
