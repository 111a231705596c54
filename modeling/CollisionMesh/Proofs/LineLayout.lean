import CollisionMesh.Proofs.EncodedText
import CollisionMesh.Proofs.MeshReading

/-!
# The layout of mesh files

How the lines of a file are laid out does not matter: white space around a line or between the
fields of a vertex or a face, line ends of two characters, a line feed at the end of the file, and
lines that declare nothing. A file that is edited so is read as before, failures included, but for
the numbers of the lines, which move with the lines.
-/

namespace CollisionMesh

set_option autoImplicit false

def Face.relocated (moved : Nat → Nat) (face : Face) : Face := { face with line := moved face.line }

/-- The mesh with its faces declared on other lines. -/
def Mesh.relocated (moved : Nat → Nat) (mesh : Mesh) : Mesh :=
  { mesh with faces := mesh.faces.map (Face.relocated moved) }

def Failure.relocated (moved : Nat → Nat) : Failure → Failure
  | malformedLine path line content fault => malformedLine path (moved line) content fault
  | vertexOutOfRange path line index count => vertexOutOfRange path (moved line) index count
  | failure => failure

/-- An outcome on other lines: what was read is relocated in its own way, and a failure in
the line that it names. -/
def relocateOutcome {α : Type} (relocate : α → α) (moved : Nat → Nat) (outcome : Except Failure α) :
    Except Failure α :=
  (outcome.map relocate).mapError (Failure.relocated moved)

theorem Mesh.relocated_id (mesh : Mesh) : mesh.relocated id = mesh := by
  have hface : Face.relocated id = id := rfl
  rw [relocated, hface, Array.map_id]

theorem Mesh.relocated_comp (next moved : Nat → Nat) (mesh : Mesh) :
    mesh.relocated (next ∘ moved) = (mesh.relocated moved).relocated next := by
  simp only [relocated, Array.map_map]
  rfl

theorem Failure.relocated_id (failure : Failure) : failure.relocated id = failure := by
  cases failure <;> rfl

theorem Failure.relocated_comp (next moved : Nat → Nat) (failure : Failure) :
    failure.relocated (next ∘ moved) = (failure.relocated moved).relocated next := by
  cases failure <;> rfl

theorem relocateOutcome_id (outcome : Except Failure Mesh) :
    relocateOutcome (Mesh.relocated id) id outcome = outcome := by
  cases outcome with
  | ok mesh => exact congrArg Except.ok mesh.relocated_id
  | error failure => exact congrArg Except.error failure.relocated_id

theorem relocateOutcome_comp (next moved : Nat → Nat) (outcome : Except Failure Mesh) :
    relocateOutcome (Mesh.relocated (next ∘ moved)) (next ∘ moved) outcome =
      relocateOutcome (Mesh.relocated next) next
        (relocateOutcome (Mesh.relocated moved) moved outcome) := by
  cases outcome with
  | ok mesh => exact congrArg Except.ok (mesh.relocated_comp next moved)
  | error failure => exact congrArg Except.error (failure.relocated_comp next moved)

namespace Reading

def relocated (moved : Nat → Nat) (reading : Reading) : Reading :=
  { reading with mesh := reading.mesh.relocated moved }

variable (moved : Nat → Nat) (policy : VertexPolicy) (reading : Reading)

theorem addStatement_relocated (number : Nat) (content : String) (statement : Statement) :
    (reading.relocated moved).addStatement policy (moved number) content statement =
      relocateOutcome (relocated moved) moved
        (reading.addStatement policy number content statement) := by
  cases statement with
  | vertex position => rfl
  | malformedVertex fault => cases policy <;> rfl
  | face references =>
    simp only [addStatement]
    split
    · rfl
    · simp only [relocateOutcome, Except.map, Except.mapError, relocated, Mesh.relocated,
        Array.map_push, Face.relocated]
  | material name => rfl
  | malformed fault => rfl
  | other => rfl

/-- A line adds the same on whatever line it stands. -/
theorem add_relocated (line : List UInt8) (number : Nat) :
    (reading.relocated moved).add policy (line, moved number) =
      relocateOutcome (relocated moved) moved (reading.add policy (line, number)) := by
  have hsame : Mesh.Line.content? (line, moved number) = Mesh.Line.content? (line, number) := rfl
  cases hcontent : Mesh.Line.content? (line, number) with
  | none =>
    rw [Mesh.add_of_not_text _ hcontent, Mesh.add_of_not_text _ (hsame.trans hcontent)]
    rfl
  | some content =>
    rw [Mesh.add_of_content _ hcontent, Mesh.add_of_content _ (hsame.trans hcontent)]
    exact addStatement_relocated moved policy reading _ _ _

end Reading

namespace Mesh

/-- Lines that say the same wherever they stand. -/
def Alike (line other : List UInt8) : Prop :=
  ∀ (policy : VertexPolicy) (reading : Reading) (number : Nat),
    reading.add policy (line, number) = reading.add policy (other, number)

/-- A line that says nothing, wherever it stands. -/
def Idle (line : List UInt8) : Prop :=
  ∀ (policy : VertexPolicy) (reading : Reading) (number : Nat),
    reading.add policy (line, number) = .ok reading

theorem Alike.refl (line : List UInt8) : Alike line line := fun _ _ _ => rfl

/-- The lines of a file, and those of an edited one: the same to say, at moved numbers, and between
them lines that say nothing. -/
inductive Realigned (moved : Nat → Nat) : List Line → List Line → Prop
  | nil : Realigned moved [] []
  | keep {line other : List UInt8} {lines others : List Line} (number : Nat) (h : Alike line other)
      (hrest : Realigned moved lines others) :
      Realigned moved ((line, number) :: lines) ((other, moved number) :: others)
  | idle {line : List UInt8} {lines others : List Line} (number : Nat) (h : Idle line)
      (hrest : Realigned moved lines others) : Realigned moved lines ((line, number) :: others)

theorem foldlM_of_realigned {moved : Nat → Nat} {lines others : List Line}
    (h : Realigned moved lines others) (policy : VertexPolicy) (reading : Reading) :
    others.foldlM (Reading.add policy) (reading.relocated moved) =
      relocateOutcome (Reading.relocated moved) moved
        (lines.foldlM (Reading.add policy) reading) := by
  induction h generalizing reading with
  | nil => rfl
  | keep number halike _ ih =>
    rw [List.foldlM_cons, List.foldlM_cons, ← halike, Reading.add_relocated]
    cases reading.add policy (_, number) with
    | error failure => rfl
    | ok next => exact ih next
  | idle number hidle _ ih =>
    rw [List.foldlM_cons, hidle]
    exact ih reading

theorem ofBytes_of_realigned {moved : Nat → Nat} {text edited : List UInt8}
    (h : Realigned moved (numberedLines text) (numberedLines edited)) (policy : VertexPolicy)
    (path : Path) :
    ofBytes policy path edited =
      relocateOutcome (relocated moved) moved (ofBytes policy path text) := by
  have hrun := foldlM_of_realigned h policy ⟨Mesh.empty path, none⟩
  have hstart : Reading.relocated moved ⟨Mesh.empty path, none⟩ = ⟨Mesh.empty path, none⟩ := by
    simp only [Reading.relocated, relocated, empty, Array.map_empty]
  rw [hstart] at hrun
  unfold ofBytes
  rw [hrun]
  cases (numberedLines text).foldlM (Reading.add policy) ⟨Mesh.empty path, none⟩ <;> rfl

/-- Lines that are kept as they are, from some number on. -/
theorem Realigned.zipIdx {moved : Nat → Nat} (lines : List (List UInt8)) {start other : Nat}
    {rest rest' : List Line} (h : ∀ i < lines.length, moved (start + i) = other + i)
    (hrest : Realigned moved rest rest') :
    Realigned moved (lines.zipIdx start ++ rest) (lines.zipIdx other ++ rest') := by
  induction lines generalizing start other with
  | nil => exact hrest
  | cons line lines ih =>
    have hfirst : moved start = other := by simpa using h 0 (by simp)
    subst hfirst
    refine .keep start (.refl line) (ih ?_)
    intro i hi
    have hi : i + 1 < (line :: lines).length := by simpa using hi
    have hnext := h (i + 1) hi
    rw [Nat.add_assoc, Nat.add_assoc, Nat.add_comm 1 i]
    exact hnext

section Lines

variable {text edited line other : List UInt8} {before after : List (List UInt8)}

/-- One line in the place of another that says the same. -/
theorem realigned_of_alike (h : Alike line other)
    (htext : text.splitOn '\n'.toUInt8 = before ++ line :: after)
    (hedited : edited.splitOn '\n'.toUInt8 = before ++ other :: after) :
    Realigned id (numberedLines text) (numberedLines edited) := by
  rw [numberedLines, numberedLines, htext, hedited, List.zipIdx_append, List.zipIdx_append]
  refine .zipIdx before (fun i _ => rfl) (.keep _ h ?_)
  have hrest : Realigned id (after.zipIdx (1 + before.length + 1) ++ [])
      (after.zipIdx (1 + before.length + 1) ++ []) :=
    .zipIdx after (fun i _ => rfl) .nil
  simpa using hrest

/-- A line that says nothing, put between others: those behind it move by one. -/
theorem realigned_of_idle (h : Idle line) (htext : text.splitOn '\n'.toUInt8 = before ++ after)
    (hedited : edited.splitOn '\n'.toUInt8 = before ++ line :: after) :
    Realigned (fun number => if number ≤ before.length then number else number + 1)
      (numberedLines text) (numberedLines edited) := by
  rw [numberedLines, numberedLines, htext, hedited, List.zipIdx_append, List.zipIdx_append]
  refine .zipIdx before (fun i hi => if_pos (by omega)) (.idle _ h ?_)
  have hrest : Realigned (fun number => if number ≤ before.length then number else number + 1)
      (after.zipIdx (1 + before.length) ++ []) (after.zipIdx (1 + before.length + 1) ++ []) := by
    refine .zipIdx after (fun i _ => ?_) .nil
    rw [if_neg (by omega)]
    omega
  simpa using hrest

end Lines

theorem content?_eq_decode? (line : List UInt8) (number : Nat) :
    Line.content? (line, number) = (Text.decode? line).map Text.trim := by
  rw [Line.content?, Text.decode?, Option.map_map]
  rfl

theorem content?_encode (cs : List Char) (number : Nat) :
    Line.content? (Text.encode cs, number) = some (Text.trim cs) := by
  rw [content?_eq_decode?, Text.decode?_encode, Option.map_some]

/-- Lines that are the same but for white space at their ends are alike, also
where they are no text. -/
theorem alike_of_pad {lead trail : List Char} (hlead : ∀ c ∈ lead, Text.isBlank c = true)
    (htrail : ∀ c ∈ trail, Text.isBlank c = true) (line : List UInt8) :
    Alike line (Text.encode lead ++ line ++ Text.encode trail) := by
  intro policy reading number
  have hcontent : Line.content? (Text.encode lead ++ line ++ Text.encode trail, number) =
      Line.content? (line, number) := by
    rw [content?_eq_decode?, content?_eq_decode?, Text.decode?_append_encode,
      Text.decode?_encode_append, Option.map_map, Option.map_map]
    congr 1
    funext cs
    rw [Function.comp_apply, Function.comp_apply, Text.trim_append_blank htrail,
      Text.trim_blank_append hlead]
  cases h : Line.content? (line, number) with
  | none => rw [add_of_not_text _ h, add_of_not_text _ (hcontent.trans h)]
  | some content => rw [add_of_content _ h, add_of_content _ (hcontent.trans h)]

/-- A line that declares nothing: a blank line, a comment, or a line that begins
with some other keyword. -/
def DeclaresNothing (cs : List Char) : Prop :=
  (∀ c ∈ cs, Text.isBlank c = true) ∨ cs.head? = some '#' ∨
    ∃ keyword fields, Text.words cs = keyword :: fields ∧ keyword ≠ "v".toList ∧
      keyword ≠ "f".toList ∧
      keyword ≠ "usemtl".toList

/-- A vertex line of numbers, at least three, or a face line of tokens that
begin with whole numbers. -/
def IsWellFormed (cs : List Char) : Prop :=
  (∃ fields, fieldsAfter? "v" cs = some fields ∧ IsPosition fields) ∨
    ∃ tokens, fieldsAfter? "f" cs = some tokens ∧ ∀ token ∈ tokens, leadingInteger? token ≠ none

theorem fieldsAfter?_trim (keyword : String) (cs : List Char) :
    fieldsAfter? keyword (Text.trim cs) = fieldsAfter? keyword cs := by
  rw [fieldsAfter?, fieldsAfter?, Text.words_trim]

theorem fieldsAfter?_eq_none_of_declaresNothing {cs : List Char} (h : DeclaresNothing cs)
    {keyword : String} (hkeyword : keyword = "v" ∨ keyword = "f" ∨ keyword = "usemtl") :
    fieldsAfter? keyword cs = none := by
  have hhead : keyword.toList.head? ≠ some '#' := by
    rcases hkeyword with rfl | rfl | rfl <;> decide
  have hother : ∀ first fields, Text.words cs = first :: fields → first ≠ keyword.toList →
      fieldsAfter? keyword cs = none := by
    intro first fields hwords hne
    simp only [fieldsAfter?, hwords, if_neg hne]
  rcases h with hblank | hcomment | ⟨first, fields, hwords, hv, hf, hm⟩
  · rw [fieldsAfter?, (Text.words_eq_nil_iff cs).mpr hblank]
  · obtain ⟨rest, rfl⟩ := List.head?_eq_some_iff.mp hcomment
    obtain ⟨first, tail, hsplit, hwords⟩ :=
      Text.words_cons_of_not_isBlank (by decide : Text.isBlank '#' = false) rest
    refine hother first _ hwords fun hfirst => hhead ?_
    have hne : first ≠ [] := Text.not_isEmpty_of_mem_words (hwords ▸ List.mem_cons_self)
    obtain ⟨c, word, rfl⟩ := List.exists_cons_of_ne_nil hne
    rw [List.cons_append, List.cons.injEq] at hsplit
    rw [← hfirst, List.head?_cons, hsplit.1]
  · refine hother first fields hwords ?_
    rcases hkeyword with rfl | rfl | rfl
    · exact hv
    · exact hf
    · exact hm

theorem idle_of_declaresNothing {cs : List Char} (h : DeclaresNothing cs) :
    Idle (Text.encode cs) := by
  intro policy reading number
  have hnone {keyword : String} (hkeyword : keyword = "v" ∨ keyword = "f" ∨ keyword = "usemtl") :
      fieldsAfter? keyword (Text.trim cs) = none := by
    rw [fieldsAfter?_trim]
    exact fieldsAfter?_eq_none_of_declaresNothing h hkeyword
  rw [add_of_content _ (content?_encode cs number),
    ofLine_of_other (hnone (.inl rfl)) (hnone (.inr (.inl rfl))) (hnone (.inr (.inr rfl)))]
  rfl

/-- A line that can be read is told by its words; only failures show its text. -/
theorem alike_of_words {cs ds : List Char} (hwords : Text.words cs = Text.words ds)
    (h : IsWellFormed cs) :
    Alike (Text.encode cs) (Text.encode ds) := by
  intro policy reading number
  have hfields : ∀ keyword, fieldsAfter? keyword (Text.trim ds) =
      fieldsAfter? keyword (Text.trim cs) := by
    intro keyword
    rw [fieldsAfter?, fieldsAfter?, Text.words_trim, Text.words_trim, hwords]
  rw [add_of_content _ (content?_encode cs number), add_of_content _ (content?_encode ds number)]
  rcases h with ⟨fields, hv, hposition⟩ | ⟨tokens, hf, htokens⟩
  · rw [← fieldsAfter?_trim] at hv
    rw [ofLine_of_vertex hv, ofLine_of_vertex ((hfields "v").trans hv)]
    cases hread : position? fields with
    | none => exact absurd hposition ((position?_eq_none_iff fields).mp hread)
    | some position => rfl
  · rw [← fieldsAfter?_trim] at hf
    have hgood : ¬∃ token ∈ tokens, leadingInteger? token = none := by
      rintro ⟨token, htoken, hnone⟩
      exact htokens token htoken hnone
    rw [ofLine_of_face hf, ofLine_of_face ((hfields "f").trans hf), if_neg hgood]
    rfl

theorem alike_of_gap {left gap other right : List Char}
    (hgap : gap ≠ [] ∧ ∀ c ∈ gap, Text.isBlank c = true)
    (hother : other ≠ [] ∧ ∀ c ∈ other, Text.isBlank c = true)
    (h : IsWellFormed (left ++ gap ++ right)) :
    Alike (Text.encode (left ++ gap ++ right)) (Text.encode (left ++ other ++ right)) := by
  refine alike_of_words ?_ h
  rw [Text.words_append_gap hgap.1 hgap.2, Text.words_append_gap hother.1 hother.2]

/-- One edit of the layout of a file, with the numbers that the lines of the file have in the edited
one. Line feeds divide lines, so one more at the end of a file begins a last line that is empty. -/
inductive Edit : List UInt8 → List UInt8 → (Nat → Nat) → Prop
  /-- A line that declares nothing comes in anywhere. -/
  | insert {text edited : List UInt8} {before after : List (List UInt8)} {cs : List Char}
      (h : DeclaresNothing cs) (htext : text.splitOn '\n'.toUInt8 = before ++ after)
      (hedited : edited.splitOn '\n'.toUInt8 = before ++ Text.encode cs :: after) :
      Edit text edited fun number => if number ≤ before.length then number else number + 1
  /-- White space comes in at the ends of any line. -/
  | pad {text edited line : List UInt8} {before after : List (List UInt8)} {lead trail : List Char}
      (hlead : ∀ c ∈ lead, Text.isBlank c = true) (htrail : ∀ c ∈ trail, Text.isBlank c = true)
      (htext : text.splitOn '\n'.toUInt8 = before ++ line :: after)
      (hedited : edited.splitOn '\n'.toUInt8 =
        before ++ (Text.encode lead ++ line ++ Text.encode trail) :: after) :
      Edit text edited id
  /-- A carriage return comes in before a line feed. -/
  | returnCarriage (before after : List UInt8) :
      Edit (before ++ '\n'.toUInt8 :: after) (before ++ '\r'.toUInt8 :: '\n'.toUInt8 :: after) id
  /-- The last line is ended with a line feed. -/
  | endLast (text : List UInt8) : Edit text (text ++ ['\n'.toUInt8]) id
  /-- The line feed at the end is taken away. -/
  | openLast (text : List UInt8) : Edit (text ++ ['\n'.toUInt8]) text id
  /-- White space in the line of a vertex or a face that can be read becomes other white space. -/
  | respace {text edited : List UInt8} {before after : List (List UInt8)}
      {left gap other right : List Char} (hgap : gap ≠ [] ∧ ∀ c ∈ gap, Text.isBlank c = true)
      (hother : other ≠ [] ∧ ∀ c ∈ other, Text.isBlank c = true)
      (h : IsWellFormed (left ++ gap ++ right))
      (htext : text.splitOn '\n'.toUInt8 = before ++ Text.encode (left ++ gap ++ right) :: after)
      (hedited : edited.splitOn '\n'.toUInt8 =
        before ++ Text.encode (left ++ other ++ right) :: after) :
      Edit text edited id

/-- Edits one after the other; the numbers of the lines move with each of them. -/
inductive Edits : List UInt8 → List UInt8 → (Nat → Nat) → Prop
  | refl (text : List UInt8) : Edits text text id
  | step {text between edited : List UInt8} {moved next : Nat → Nat}
      (hedits : Edits text between moved) (hedit : Edit between edited next) :
      Edits text edited (next ∘ moved)

/-- What is put behind a text without line feed of its own stands on the last line. -/
theorem exists_splitOn_append {α : Type} [DecidableEq α] {separator : α} {trail : List α}
    (h : separator ∉ trail) (xs : List α) :
    ∃ before last, xs.splitOn separator = before ++ [last] ∧
      (xs ++ trail).splitOn separator = before ++ [last ++ trail] := by
  induction xs with
  | nil => exact ⟨[], [], List.splitOn_nil separator, List.splitOn_eq_singleton h⟩
  | cons x xs ih =>
    obtain ⟨before, last, hxs, happend⟩ := ih
    rw [List.cons_append, List.splitOn_cons_eq_if_modifyHead, List.splitOn_cons_eq_if_modifyHead,
      hxs, happend]
    by_cases hx : (x == separator) = true
    · rw [if_pos hx, if_pos hx]
      exact ⟨[] :: before, last, rfl, rfl⟩
    · rw [if_neg hx, if_neg hx]
      cases before with
      | nil => exact ⟨[], x :: last, rfl, rfl⟩
      | cons first before => exact ⟨(x :: first) :: before, last, rfl, rfl⟩

variable {text edited : List UInt8} {moved : Nat → Nat}

theorem realigned_of_returnCarriage (before after : List UInt8) :
    Realigned id (numberedLines (before ++ '\n'.toUInt8 :: after))
      (numberedLines (before ++ '\r'.toUInt8 :: '\n'.toUInt8 :: after)) := by
  have hfeed : '\n'.toUInt8 ∉ ['\r'.toUInt8] := by decide
  obtain ⟨lines, last, hbefore, happend⟩ := exists_splitOn_append hfeed before
  have halike : Alike last (last ++ ['\r'.toUInt8]) := by
    have hblank : ∀ c ∈ ['\r'], Text.isBlank c = true := List.forall_mem_singleton.mpr rfl
    have hreturn : Text.encode ['\r'] = ['\r'.toUInt8] := by decide
    have hpad := alike_of_pad (List.forall_mem_nil _) hblank last
    rwa [Text.encode_nil, List.nil_append, hreturn] at hpad
  have htext : (before ++ '\n'.toUInt8 :: after).splitOn '\n'.toUInt8 =
      lines ++ last :: after.splitOn '\n'.toUInt8 := by
    rw [List.splitOn_append_cons_self, hbefore, List.append_assoc, List.singleton_append]
  have hedited : (before ++ '\r'.toUInt8 :: '\n'.toUInt8 :: after).splitOn '\n'.toUInt8 =
      lines ++ (last ++ ['\r'.toUInt8]) :: after.splitOn '\n'.toUInt8 := by
    rw [List.append_cons, List.splitOn_append_cons_self, happend, List.append_assoc,
      List.singleton_append]
  exact realigned_of_alike halike htext hedited

theorem realigned_of_endLast (text : List UInt8) :
    Realigned id (numberedLines text) (numberedLines (text ++ ['\n'.toUInt8])) := by
  have hidle : Idle [] := fun _ _ _ => rfl
  rw [numberedLines, numberedLines, List.splitOn_append_cons_self, List.splitOn_nil,
    List.zipIdx_append]
  have hrest : Realigned id []
      (([[]] : List (List UInt8)).zipIdx (1 + (text.splitOn '\n'.toUInt8).length)) :=
    .idle _ hidle .nil
  have hlines : Realigned id ((text.splitOn '\n'.toUInt8).zipIdx 1 ++ [])
      ((text.splitOn '\n'.toUInt8).zipIdx 1 ++
        ([[]] : List (List UInt8)).zipIdx (1 + (text.splitOn '\n'.toUInt8).length)) :=
    .zipIdx _ (fun i _ => rfl) hrest
  rwa [List.append_nil] at hlines

theorem ofBytes_of_edit (h : Edit text edited moved) (policy : VertexPolicy) (path : Path) :
    ofBytes policy path edited =
      relocateOutcome (relocated moved) moved (ofBytes policy path text) := by
  cases h with
  | insert h htext hedited =>
    exact ofBytes_of_realigned (realigned_of_idle (idle_of_declaresNothing h) htext hedited)
      policy path
  | pad hlead htrail htext hedited =>
    exact ofBytes_of_realigned (realigned_of_alike (alike_of_pad hlead htrail _) htext hedited)
      policy path
  | returnCarriage before after =>
    exact ofBytes_of_realigned (realigned_of_returnCarriage before after) policy path
  | endLast => exact ofBytes_of_realigned (realigned_of_endLast text) policy path
  | openLast =>
    have hended := ofBytes_of_realigned (realigned_of_endLast edited) policy path
    rw [relocateOutcome_id] at hended
    rw [relocateOutcome_id, hended]
  | respace hgap hother h htext hedited =>
    exact ofBytes_of_realigned (realigned_of_alike (alike_of_gap hgap hother h) htext hedited)
      policy path

/-- However its layout is edited, a file is read as before, and fails as before, on the lines to
which its lines moved. -/
theorem ofBytes_of_edits (h : Edits text edited moved) (policy : VertexPolicy) (path : Path) :
    ofBytes policy path edited =
      relocateOutcome (relocated moved) moved (ofBytes policy path text) := by
  induction h with
  | refl => rw [relocateOutcome_id]
  | step _ hedit ih => rw [ofBytes_of_edit hedit, ih, ← relocateOutcome_comp]

/-- A comment, a space that does not break, a tab, a carriage return and a last line feed: the line
that fails is the third one before and the fourth one after. -/
theorem ofBytes_of_edits_five :
    let file := fun text : String => Text.encode text.toList
    let failureOn :=
      fun line => Failure.malformedLine ⟨"a.obj"⟩ line "f one" (.invalidReference "one")
    ∃ moved, Edits (file "v 0 0 0\nf 1 1 -1\nf one")
        (file "# one\n\u00a0v 0\t0 0\r\nf 1 1 -1\nf one\n") moved ∧
      ofBytes .fail ⟨"a.obj"⟩ (file "v 0 0 0\nf 1 1 -1\nf one") = .error (failureOn 3) ∧
      ofBytes .fail ⟨"a.obj"⟩ (file "# one\n\u00a0v 0\t0 0\r\nf 1 1 -1\nf one\n") =
        .error (failureOn 4) := by
  intro file failureOn
  have hcomment : Edit (file "v 0 0 0\nf 1 1 -1\nf one")
      (file "# one\nv 0 0 0\nf 1 1 -1\nf one") _ :=
    @Edit.insert _ _ [] [file "v 0 0 0", file "f 1 1 -1", file "f one"] "# one".toList
      (.inr (.inl rfl)) (by decide +kernel) (by decide +kernel)
  have hpad : Edit _ (file "# one\n\u00a0v 0 0 0\nf 1 1 -1\nf one") _ :=
    @Edit.pad (file "# one\nv 0 0 0\nf 1 1 -1\nf one") _ (file "v 0 0 0") [file "# one"]
      [file "f 1 1 -1", file "f one"] ['\u00a0'] [] (List.forall_mem_singleton.mpr rfl)
      (List.forall_mem_nil _) (by decide +kernel) (by decide +kernel)
  have htab : Edit _ (file "# one\n\u00a0v 0\t0 0\nf 1 1 -1\nf one") _ :=
    @Edit.respace (file "# one\n\u00a0v 0 0 0\nf 1 1 -1\nf one") _ [file "# one"]
      [file "f 1 1 -1", file "f one"]
      "\u00a0v 0".toList [' '] ['\t'] "0 0".toList
      ⟨List.cons_ne_nil _ _, List.forall_mem_singleton.mpr rfl⟩
      ⟨List.cons_ne_nil _ _, List.forall_mem_singleton.mpr rfl⟩
      (.inl ⟨[['0'], ['0'], ['0']], by decide +kernel, by decide +kernel⟩) (by decide +kernel)
      (by decide +kernel)
  have hreturn : Edit (file "# one\n\u00a0v 0\t0 0\nf 1 1 -1\nf one")
      (file "# one\n\u00a0v 0\t0 0\r\nf 1 1 -1\nf one") _ :=
    .returnCarriage (file "# one\n\u00a0v 0\t0 0") (file "f 1 1 -1\nf one")
  have hlast : Edit (file "# one\n\u00a0v 0\t0 0\r\nf 1 1 -1\nf one")
      (file "# one\n\u00a0v 0\t0 0\r\nf 1 1 -1\nf one\n") _ :=
    .endLast _
  have hedits :=
    Edits.step (.step (.step (.step (.step (.refl _) hcomment) hpad) htab) hreturn) hlast
  have hfails : ofBytes .fail ⟨"a.obj"⟩ (file "v 0 0 0\nf 1 1 -1\nf one") =
      .error (failureOn 3) := by decide +kernel
  have hedited := ofBytes_of_edits hedits .fail ⟨"a.obj"⟩
  rw [hfails] at hedited
  exact ⟨_, hedits, hfails, hedited⟩

end Mesh

end CollisionMesh
