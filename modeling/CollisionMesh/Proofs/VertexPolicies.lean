import CollisionMesh.Proofs.MeshReading
import CollisionMesh.Proofs.PathPieces

/-!
# Vertices that are skipped

A vertex line that cannot be read is an offence under the one policy and a count under the other.
Skipping such lines is reading the file in which they are empty: an empty line keeps its number and
says nothing, so references, materials and later failures come out the same.
-/

namespace CollisionMesh

set_option autoImplicit false

namespace Mesh

/-- Whether a line is a vertex line with fewer than three fields, or with one that is no number. -/
def Line.IsMalformedVertex (line : Line) : Prop :=
  ∃ fields, line.vertexFields? = some fields ∧
    (fields.length < 3 ∨ ∃ field ∈ fields, Binary64.ofText? field = none)

theorem isMalformedVertex_iff {line : Line} :
    line.IsMalformedVertex ↔ ∃ fields, line.vertexFields? = some fields ∧ ¬IsPosition fields := by
  simp only [Line.IsMalformedVertex, IsPosition, not_and_or, Nat.not_le, not_forall,
    Option.not_isSome_iff_eq_none, exists_prop]

instance (line : Line) : Decidable line.IsMalformedVertex :=
  decidable_of_iff (line.vertexFields?.any fun fields => !IsPosition fields) (by
    rw [isMalformedVertex_iff]
    cases line.vertexFields? <;> simp)

theorem exists_fields_of_ofLine {content : List Char} {fault : LineFault}
    (h : Statement.ofLine content = .malformedVertex fault) :
    ∃ fields, fieldsAfter? "v" content = some fields ∧ ¬IsPosition fields := by
  cases hv : fieldsAfter? "v" content with
  | some fields =>
    rw [ofLine_of_vertex hv] at h
    refine ⟨fields, rfl, (position?_eq_none_iff fields).mp ?_⟩
    cases hposition : position? fields with
    | none => rfl
    | some position =>
      rw [hposition] at h
      cases h
  | none =>
    exfalso
    unfold Statement.ofLine at h
    split at h
    · cases h
    · rename_i keyword fields hwords
      have hkeyword : ¬keyword = ['v'] := by
        rintro rfl
        rw [fieldsAfter?_eq_some_iff.mpr hwords] at hv
        cases hv
      rw [if_neg hkeyword] at h
      split at h
      · split at h <;> cases h
      · split at h
        · split at h <;> cases h
        · cases h

/-- The line with nothing in it, if it is a vertex line that cannot be read. -/
def Line.emptied (line : Line) : Line := if line.IsMalformedVertex then ([], line.2) else line

/-- The file in which every vertex line that cannot be read is empty. -/
def cleaned (bytes : List UInt8) : List UInt8 :=
  ['\n'.toUInt8].intercalate ((numberedLines bytes).map fun line => (Line.emptied line).1)

def malformedVertexCount (bytes : List UInt8) : Nat :=
  (numberedLines bytes).countP fun line => Line.IsMalformedVertex line

def recounted (count : Nat) (mesh : Mesh) : Mesh := { mesh with skippedVertices := count }

end Mesh

namespace Reading

def recounted (count : Nat) (reading : Reading) : Reading :=
  { reading with mesh := reading.mesh.recounted count }

variable {line : Mesh.Line} (count : Nat) (reading : Reading)

/-- No statement looks at the count, and without the policy to skip none changes it. -/
theorem addStatement_recounted (number : Nat) (content : String) (statement : Statement) :
    (reading.recounted count).addStatement .fail number content statement =
      (reading.addStatement .fail number content statement).map (recounted count) := by
  cases statement with
  | vertex position => rfl
  | malformedVertex fault => rfl
  | face references =>
    simp only [addStatement]
    split <;> rfl
  | material name => rfl
  | malformed fault => rfl
  | other => rfl

theorem add_recounted :
    (reading.recounted count).add .fail line = (reading.add .fail line).map (recounted count) := by
  cases hcontent : line.content? with
  | none =>
    rw [Mesh.add_of_not_text _ hcontent, Mesh.add_of_not_text _ hcontent]
    rfl
  | some content =>
    rw [Mesh.add_of_content _ hcontent, Mesh.add_of_content _ hcontent]
    exact addStatement_recounted count reading _ _ _

theorem add_skip_of_malformed (h : line.IsMalformedVertex) :
    reading.add .skip line = .ok (reading.recounted (reading.mesh.skippedVertices + 1)) := by
  obtain ⟨fields, hfields, hbad⟩ := Mesh.isMalformedVertex_iff.mp h
  obtain ⟨content, hcontent, hv⟩ := Option.bind_eq_some_iff.mp hfields
  rw [Mesh.add_of_content _ hcontent, Mesh.ofLine_of_vertex hv,
    (Mesh.position?_eq_none_iff fields).mpr hbad]
  rfl

theorem add_skip_of_not_malformed (h : ¬line.IsMalformedVertex) :
    reading.add .skip line = reading.add .fail line := by
  cases hcontent : line.content? with
  | none => rw [Mesh.add_of_not_text _ hcontent, Mesh.add_of_not_text _ hcontent]
  | some content =>
    rw [Mesh.add_of_content _ hcontent, Mesh.add_of_content _ hcontent]
    cases hstatement : Statement.ofLine content with
    | malformedVertex fault =>
      obtain ⟨fields, hv, hbad⟩ := Mesh.exists_fields_of_ofLine hstatement
      exact absurd
        (Mesh.isMalformedVertex_iff.mpr
          ⟨fields, by simp [Mesh.Line.vertexFields?, hcontent, hv], hbad⟩) h
    | vertex position => rfl
    | face references => rfl
    | material name => rfl
    | malformed fault => rfl
    | other => rfl

theorem add_empty (policy : VertexPolicy) (number : Nat) :
    reading.add policy ([], number) = .ok reading := by
  rfl

/-- Along a file: the run that skips has the count of lines that were emptied, and else
what the strict run has. -/
theorem foldlM_skip (lines : List Mesh.Line) :
    lines.foldlM (add .skip) (reading.recounted count) =
      ((lines.map Mesh.Line.emptied).foldlM (add .fail) reading).map
        (recounted (count + lines.countP fun line => Mesh.Line.IsMalformedVertex line)) := by
  induction lines generalizing count reading with
  | nil => rfl
  | cons line lines ih =>
    rw [List.map_cons, List.foldlM_cons, List.foldlM_cons]
    by_cases h : Mesh.Line.IsMalformedVertex line
    · have hcount :=
        List.countP_cons_of_pos (p := fun line => decide (Mesh.Line.IsMalformedVertex line))
        (l := lines) (decide_eq_true h)
      rw [hcount, Mesh.Line.emptied, if_pos h, add_empty, add_skip_of_malformed _ h]
      have hrest := ih (count + 1) reading
      rw [Nat.add_right_comm, Nat.add_assoc] at hrest
      exact hrest
    · have hcount :=
        List.countP_cons_of_neg (p := fun line => decide (Mesh.Line.IsMalformedVertex line))
        (l := lines) (by simpa using h)
      rw [hcount, Mesh.Line.emptied, if_neg h, add_skip_of_not_malformed _ h, add_recounted]
      cases reading.add .fail line with
      | error failure => rfl
      | ok next => exact ih count next

theorem foldlM_skip_of_not_malformed {lines : List Mesh.Line}
    (h : ∀ line ∈ lines, ¬Mesh.Line.IsMalformedVertex line) :
    lines.foldlM (add .skip) reading = lines.foldlM (add .fail) reading := by
  induction lines generalizing reading with
  | nil => rfl
  | cons line lines ih =>
    obtain ⟨hline, hrest⟩ := List.forall_mem_cons.mp h
    rw [List.foldlM_cons, List.foldlM_cons, add_skip_of_not_malformed _ hline]
    cases reading.add .fail line with
    | error failure => rfl
    | ok next => exact ih next hrest

end Reading

namespace Mesh

theorem snd_emptied (line : Line) : (Line.emptied line).2 = line.2 := by
  unfold Line.emptied
  split <;> rfl

theorem numberedLines_cleaned (bytes : List UInt8) :
    numberedLines (cleaned bytes) = (numberedLines bytes).map Line.emptied := by
  have hnumbers : ((numberedLines bytes).map Line.emptied).map Prod.snd =
      (numberedLines bytes).map Prod.snd := by
    rw [List.map_map]
    exact List.map_congr_left fun line _ => snd_emptied line
  have hfeed : ∀ line ∈ (numberedLines bytes).map Line.emptied, '\n'.toUInt8 ∉ line.1 := by
    intro emptied hmem
    obtain ⟨line, hline, rfl⟩ := List.mem_map.mp hmem
    unfold Line.emptied
    split
    · exact List.not_mem_nil
    · exact not_mem_of_mem_splitOn (List.fst_mem_of_mem_zipIdx hline)
  have hlines := numberedLines_intercalate hnumbers hfeed
  rwa [List.map_map] at hlines

/-- A line offends the strict policy if it offends the other one too, or is a vertex
line that cannot be read. -/
theorem offends_fail_iff {line : Line} :
    line.Offends .fail ↔ line.Offends .skip ∨ line.IsMalformedVertex := by
  cases hcontent : line.content? with
  | none => exact iff_of_true (.inl hcontent) (.inl (.inl hcontent))
  | some content =>
    have hfields : line.vertexFields? = fieldsAfter? "v" content := by
      simp [Line.vertexFields?, hcontent]
    rw [offends_iff hcontent, offends_iff hcontent, isMalformedVertex_iff, hfields]
    simp only [true_and, reduceCtorEq, false_and, or_false, or_assoc]

theorem failure_of_malformed (path : Path) {line : Line} (h : line.IsMalformedVertex) :
    ∃ content fields, line.content? = some content ∧ line.vertexFields? = some fields ∧
      line.failure path = .malformedLine path line.2 (String.ofList content)
        (positionFault fields) := by
  obtain ⟨fields, hfields, _⟩ := h
  obtain ⟨content, hcontent, hv⟩ := Option.bind_eq_some_iff.mp hfields
  refine ⟨content, fields, hcontent, hfields, ?_⟩
  simp only [Line.failure, hcontent, contentFault, hv]

/-- Skipping is reading the cleaned file: the same failure, or the same mesh but for the count,
which is that of the lines that were emptied. So the policies agree on a file without such lines; on
one with such lines that is read with them skipped, the strict policy fails at the first of them. -/
theorem ofBytes_skip_eq_cleaned (path : Path) (bytes : List UInt8) :
    ofBytes .skip path bytes =
        (ofBytes .fail path (cleaned bytes)).map (recounted (malformedVertexCount bytes)) ∧
      ((∀ line ∈ numberedLines bytes, ¬Line.IsMalformedVertex line) →
        ofBytes .fail path bytes = ofBytes .skip path bytes) ∧
      ∀ (before after : List Line) (line : Line), numberedLines bytes = before ++ line :: after →
        (∀ earlier ∈ before, ¬Line.IsMalformedVertex earlier) → line.IsMalformedVertex →
        (∃ mesh, ofBytes .skip path bytes = .ok mesh) →
        ∃ content fields, line.content? = some content ∧ line.vertexFields? = some fields ∧
          ofBytes .fail path bytes =
            .error (.malformedLine path line.2 (String.ofList content) (positionFault fields)) := by
  refine ⟨?cleaned, ?agree, ?first⟩
  case cleaned =>
    have hrun := Reading.foldlM_skip 0 ⟨Mesh.empty path, none⟩ (numberedLines bytes)
    rw [Nat.zero_add, ← numberedLines_cleaned] at hrun
    refine (ofBytes_of_foldlM hrun).trans ?_
    unfold ofBytes
    cases (numberedLines (cleaned bytes)).foldlM (Reading.add .fail) ⟨Mesh.empty path, none⟩ <;> rfl
  case agree =>
    intro hlines
    unfold ofBytes
    rw [Reading.foldlM_skip_of_not_malformed _ hlines]
  case first =>
    rintro before after line hsplit hbefore hline ⟨mesh, hmesh⟩
    have hnone := not_offends_of_ofBytes hmesh
    rw [hsplit] at hnone
    have hgood : ∀ earlier ∈ before, ¬Line.Offends .fail earlier := by
      intro earlier hmem hoffends
      rcases offends_fail_iff.mp hoffends with hskip | hmalformed
      · exact hnone earlier (List.mem_append_left _ hmem) hskip
      · exact hbefore earlier hmem hmalformed
    have hfails := ofBytes_of_foldlM
      ((foldlM_add_eq .fail path [] _).1 before line after hsplit hgood
        (offends_fail_iff.mpr (.inr hline)))
    obtain ⟨content, fields, hcontent, hfields, hfailure⟩ := failure_of_malformed path hline
    rw [hfailure] at hfails
    exact ⟨content, fields, hcontent, hfields, hfails⟩

end Mesh

end CollisionMesh
