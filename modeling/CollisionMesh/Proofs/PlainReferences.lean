import CollisionMesh.Proofs.LineLayout
import CollisionMesh.Proofs.PathPieces
import CollisionMesh.Proofs.SourceReading
import CollisionMesh.Proofs.Triangulation

/-!
# Plain references

A reference of a face counts the vertices before its line, forwards or back, and means the
same when the index that it comes to is written in its place. One that counts back behind the
first of those vertices comes to no index: it stays without vertex, whatever is declared
later. The count does not wrap.
-/

namespace CollisionMesh

set_option autoImplicit false

namespace Text

section Words

variable (f : List Char → List Char)

/-- The word that ends here, as it is written instead. -/
def closeWord (word : List Char) : List Char := if word = [] then [] else f word

/-- The rest of a text behind the beginning of a word, with every word written
as the function says. -/
def mapWordsFrom : List Char → List Char → List Char
  | word, [] => closeWord f word
  | word, c :: cs =>
    if isBlank c = true then closeWord f word ++ c :: mapWordsFrom [] cs
    else mapWordsFrom (word ++ [c]) cs

/-- The text with other words and the same white space. -/
def mapWords (cs : List Char) : List Char := mapWordsFrom f [] cs

variable {f}

theorem words_closeWord {word : List Char} (hword : ∀ c ∈ word, isBlank c = false)
    (hf : word ≠ [] → f word ≠ [] ∧ ∀ c ∈ f word, isBlank c = false) :
    words (closeWord f word) = (words word).map f := by
  unfold closeWord
  split
  · rename_i hnil
    subst hnil
    rfl
  · rename_i hne
    obtain ⟨hne', hblank⟩ := hf hne
    rw [words_eq_singleton hne' hblank, words_eq_singleton hne hword, List.map_singleton]

variable (hf : ∀ word ≠ [], (∀ c ∈ word, isBlank c = false) →
  f word ≠ [] ∧ ∀ c ∈ f word, isBlank c = false)

include hf

theorem words_mapWordsFrom (cs : List Char) {word : List Char}
    (hword : ∀ c ∈ word, isBlank c = false) :
    words (mapWordsFrom f word cs) = (words (word ++ cs)).map f := by
  induction cs generalizing word with
  | nil =>
    rw [List.append_nil]
    exact words_closeWord hword fun hne => hf word hne hword
  | cons c cs ih =>
    rw [mapWordsFrom]
    split
    · rename_i hc
      rw [words_append_cons hc, words_append_cons hc,
        words_closeWord hword fun hne => hf word hne hword, ih (List.forall_mem_nil _),
        List.nil_append, List.map_append]
    · rename_i hc
      have hmore : ∀ d ∈ word ++ [c], isBlank d = false :=
        List.forall_mem_append.mpr ⟨hword, List.forall_mem_singleton.mpr (Bool.eq_false_iff.mpr hc)⟩
      rw [ih hmore, List.append_assoc, List.singleton_append]

theorem words_mapWords (cs : List Char) : words (mapWords f cs) = (words cs).map f :=
  words_mapWordsFrom hf cs (List.forall_mem_nil _)

theorem not_mem_closeWord {c : Char} (hc : isBlank c = true) {word : List Char}
    (hword : ∀ d ∈ word, isBlank d = false) : c ∉ closeWord f word := by
  unfold closeWord
  split
  · exact List.not_mem_nil
  · rename_i hne
    intro hmem
    rw [(hf word hne hword).2 c hmem] at hc
    cases hc

/-- No white space comes in with the words. -/
theorem mem_of_mem_mapWordsFrom {c : Char} (hc : isBlank c = true) {cs word : List Char}
    (hword : ∀ d ∈ word, isBlank d = false) (h : c ∈ mapWordsFrom f word cs) : c ∈ cs := by
  induction cs generalizing word with
  | nil => exact absurd h (not_mem_closeWord hf hc hword)
  | cons d cs ih =>
    rw [mapWordsFrom] at h
    split at h
    · rcases List.mem_append.mp h with h | h
      · exact absurd h (not_mem_closeWord hf hc hword)
      · rcases List.mem_cons.mp h with rfl | h
        · exact List.mem_cons_self
        · exact List.mem_cons_of_mem _ (ih (List.forall_mem_nil _) h)
    · rename_i hd
      have hmore : ∀ e ∈ word ++ [d], isBlank e = false :=
        List.forall_mem_append.mpr ⟨hword, List.forall_mem_singleton.mpr (Bool.eq_false_iff.mpr hd)⟩
      exact List.mem_cons_of_mem _ (ih hmore h)

end Words

end Text

/-- Nothing wraps on the way to the index of a reference that counts back from
vertices counted in 64 bits. -/
theorem toInt_absoluteIndex {count : Nat} (hcount : count < 2 ^ 63) {reference : Int64}
    (h : reference.toInt < 0) :
    (Int64.ofNat count).toInt = count ∧
      (Int64.ofNat count + reference).toInt = count + reference.toInt ∧
      (absoluteIndex count reference).toInt = count + reference.toInt + 1 := by
  have hle := reference.le_toInt
  have hofNat : (Int64.ofNat count).toInt = count := Int64.toInt_ofNat_of_lt hcount
  have hsum : (Int64.ofNat count + reference).toInt = count + reference.toInt := by
    rw [Int64.toInt_add, hofNat, Int.bmod_eq_of_le (by omega) (by omega)]
  refine ⟨hofNat, hsum, ?_⟩
  rw [Mesh.absoluteIndex_eq_declaredIndex, Mesh.toInt_declaredIndex hcount, if_neg (by omega)]

namespace Mesh

/-- A token with the index that it comes to behind so many vertices in its place,
if that is at least 1. -/
def plainToken (count : Nat) (token : List Char) : List Char :=
  match leadingInteger? token with
  | none => token
  | some reference =>
    let index := (absoluteIndex count reference).toInt
    if 1 ≤ index then index.repr.toList else token

/-- The same bytes but for the tokens of a face line. -/
def plainLine (count : Nat) (line : List UInt8) : List UInt8 :=
  match Text.decode? line with
  | none => line
  | some cs =>
    if (fieldsAfter? "f" cs).isSome then Text.encode (Text.mapWords (plainToken count) cs) else line

/-- Lines with plain references, behind the lines before them. -/
def plainLines (before : List Line) : List Line → List Line
  | [] => []
  | line :: lines =>
    (plainLine (declaredVertices before).length line.1, line.2) ::
      plainLines (before ++ [line]) lines

/-- The file with plain references. -/
def withPlainReferences (bytes : List UInt8) : List UInt8 :=
  ['\n'.toUInt8].intercalate ((plainLines [] (numberedLines bytes)).map Prod.fst)

theorem not_isBlank_of_isTokenChar {c : Char} (h : isTokenChar c = true) :
    Text.isBlank c = false := by
  rcases Bool.or_eq_true_iff.mp h with hname | hminus
  · exact Identifier.not_isBlank_of_isNameChar hname
  · rw [beq_iff_eq.mp hminus]
    rfl

section Tokens

variable (count : Nat) (token : List Char)

theorem leadingInteger?_repr {index : Int64} :
    leadingInteger? index.toInt.repr.toList = some index := by
  have hslash : ∀ c ∈ index.toInt.repr.toList, (c != '/') = true := by
    intro c hc
    have hchar := (isToken_repr index.toInt).2 c hc
    rw [bne_iff_ne]
    rintro rfl
    cases hchar
  have hge := index.le_toInt
  have hlt := index.toInt_lt
  rw [leadingInteger?, List.takeWhile_eq_self_iff.mpr hslash, readInt64?, readInt?_repr,
    Option.bind_some, if_pos ⟨hge, hlt⟩, Int64.ofInt_toInt]

/-- Behind the same vertices a plain token comes to the same index. -/
theorem absoluteIndex_plainToken :
    (leadingInteger? (plainToken count token)).map (absoluteIndex count) =
      (leadingInteger? token).map (absoluteIndex count) := by
  unfold plainToken
  cases hread : leadingInteger? token with
  | none => simp only [hread]
  | some reference =>
    by_cases hindex : 1 ≤ (absoluteIndex count reference).toInt
    · have hnonneg : ¬absoluteIndex count reference < 0 := by
        rw [Int64.lt_iff_toInt_lt]
        simpa using Int.le_of_lt hindex
      simp only [if_pos hindex, leadingInteger?_repr, Option.map_some,
        absoluteIndex_of_nonneg hnonneg]
    · simp only [if_neg hindex, hread]

/-- A plain token is a word where the token is one. -/
theorem isWord_plainToken (hne : token ≠ []) (hword : ∀ c ∈ token, Text.isBlank c = false) :
    plainToken count token ≠ [] ∧ ∀ c ∈ plainToken count token, Text.isBlank c = false := by
  unfold plainToken
  cases leadingInteger? token with
  | none => exact ⟨hne, hword⟩
  | some reference =>
    by_cases hindex : 1 ≤ (absoluteIndex count reference).toInt
    · simp only [if_pos hindex]
      obtain ⟨hnonempty, hchars⟩ := isToken_repr (absoluteIndex count reference).toInt
      exact ⟨hnonempty, fun c hc => not_isBlank_of_isTokenChar (hchars c hc)⟩
    · simp only [if_neg hindex]
      exact ⟨hne, hword⟩

theorem leadingInteger?_plainToken_eq_none_iff :
    leadingInteger? (plainToken count token) = none ↔ leadingInteger? token = none := by
  have hindex := absoluteIndex_plainToken count token
  rw [← Option.map_eq_none_iff, hindex, Option.map_eq_none_iff]

theorem references_plainTokens (tokens : List (List Char)) :
    ((tokens.map (plainToken count)).filterMap leadingInteger?).map (absoluteIndex count) =
      (tokens.filterMap leadingInteger?).map (absoluteIndex count) := by
  rw [List.map_filterMap, List.map_filterMap, List.filterMap_map]
  exact List.filterMap_congr fun token _ => absoluteIndex_plainToken count token

end Tokens

section Lines

variable {policy : VertexPolicy} {path : Path} {before : List Line} {line : Line}

theorem addStatement_of_references {reading : Reading} {references others : List Int64}
    (h : others.map (absoluteIndex reading.mesh.vertices.size) =
      references.map (absoluteIndex reading.mesh.vertices.size))
    (number : Nat) (content content' : String) :
    reading.addStatement policy number content (.face others) =
      reading.addStatement policy number content' (.face references) := by
  have hlength := congrArg List.length h
  rw [List.length_map, List.length_map] at hlength
  simp only [Reading.addStatement, hlength, h]

/-- Only face lines are written otherwise. -/
theorem plainLine_cases (count : Nat) (bytes : List UInt8) :
    (∃ cs tokens, bytes = Text.encode cs ∧ fieldsAfter? "f" cs = some tokens ∧
        plainLine count bytes = Text.encode (Text.mapWords (plainToken count) cs)) ∨
      plainLine count bytes = bytes := by
  cases hdecode : Text.decode? bytes with
  | none => exact .inr (by simp only [plainLine, hdecode])
  | some cs =>
    cases hf : fieldsAfter? "f" cs with
    | none => exact .inr (by simp [plainLine, hdecode, hf])
    | some tokens =>
      exact .inl ⟨cs, tokens, Text.decode?_eq_some_iff.mp hdecode, hf,
        by simp [plainLine, hdecode, hf]⟩

theorem fieldsAfter?_mapWords {cs : List Char} {tokens : List (List Char)}
    (h : fieldsAfter? "f" cs = some tokens) (count : Nat) :
    fieldsAfter? "f" (Text.mapWords (plainToken count) cs) =
      some (tokens.map (plainToken count)) := by
  rw [fieldsAfter?_eq_some_iff] at h ⊢
  rw [Text.words_mapWords (isWord_plainToken count), h]
  rfl

/-- A face line that can be read says the same with the references that are plain
behind as many vertices. -/
theorem add_mapWords {reading : Reading} {cs : List Char} {tokens : List (List Char)}
    (hf : fieldsAfter? "f" cs = some tokens)
    (hgood : ¬∃ token ∈ tokens, leadingInteger? token = none) (number : Nat) :
    reading.add policy (Text.encode (Text.mapWords (plainToken reading.mesh.vertices.size) cs),
      number) = reading.add policy (Text.encode cs, number) := by
  have hplain := fieldsAfter?_mapWords hf reading.mesh.vertices.size
  have hplainGood : ¬∃ token ∈ tokens.map (plainToken reading.mesh.vertices.size),
      leadingInteger? token = none := by
    rintro ⟨plain, hplain, hnone⟩
    obtain ⟨token, htoken, rfl⟩ := List.mem_map.mp hplain
    exact hgood ⟨token, htoken, (leadingInteger?_plainToken_eq_none_iff _ token).mp hnone⟩
  rw [← fieldsAfter?_trim] at hf hplain
  rw [add_of_content _ (content?_encode _ number), add_of_content _ (content?_encode cs number),
    ofLine_of_face hf, ofLine_of_face hplain, if_neg hgood, if_neg hplainGood]
  exact addStatement_of_references (references_plainTokens _ tokens) number _ _

/-- A line that does not offend adds the same with plain references. -/
theorem add_plainLine (h : ¬line.Offends policy) :
    (readingOf path before).add policy (plainLine (declaredVertices before).length line.1, line.2) =
      .ok (readingOf path (before ++ [line])) := by
  rw [← add_of_not_offends path before h]
  obtain ⟨bytes, number⟩ := line
  rcases plainLine_cases (declaredVertices before).length bytes with
    ⟨cs, tokens, rfl, hf, hplain⟩ | hsame
  · have hgood : ¬∃ token ∈ tokens, leadingInteger? token = none := fun hbad =>
      h ((offends_iff (content?_encode cs number)).mpr
        (.inl ⟨tokens, by rw [fieldsAfter?_trim, hf], hbad⟩))
    rw [hplain]
    exact add_mapWords hf hgood number
  · rw [hsame]

theorem foldlM_plainLines {lines : List Line} (h : ∀ line ∈ lines, ¬Line.Offends policy line)
    (before : List Line) :
    (plainLines before lines).foldlM (Reading.add policy) (readingOf path before) =
      .ok (readingOf path (before ++ lines)) := by
  induction lines generalizing before with
  | nil =>
    rw [List.append_nil]
    rfl
  | cons line lines ih =>
    obtain ⟨hline, hlines⟩ := List.forall_mem_cons.mp h
    rw [plainLines, List.foldlM_cons, add_plainLine hline]
    refine (ih hlines (before ++ [line])).trans ?_
    rw [List.append_assoc, List.singleton_append]

theorem map_snd_plainLines (before lines : List Line) :
    (plainLines before lines).map Prod.snd = lines.map Prod.snd := by
  induction lines generalizing before with
  | nil => rfl
  | cons line lines ih => rw [plainLines, List.map_cons, List.map_cons, ih]

theorem lineFeed_not_mem_plainLine {bytes : List UInt8} (h : '\n'.toUInt8 ∉ bytes) (count : Nat) :
    '\n'.toUInt8 ∉ plainLine count bytes := by
  rcases plainLine_cases count bytes with ⟨cs, tokens, rfl, hf, hplain⟩ | hsame
  · rw [hplain]
    rw [Text.lineFeed_mem_encode_iff] at h ⊢
    exact mt
      (Text.mem_of_mem_mapWordsFrom (isWord_plainToken count) (by decide) (List.forall_mem_nil _)) h
  · rwa [hsame]

theorem lineFeed_not_mem_plainLines {lines : List Line} (h : ∀ line ∈ lines, '\n'.toUInt8 ∉ line.1)
    (before : List Line) : ∀ line ∈ plainLines before lines, '\n'.toUInt8 ∉ line.1 := by
  induction lines generalizing before with
  | nil => exact List.forall_mem_nil _
  | cons line lines ih =>
    obtain ⟨hline, hlines⟩ := List.forall_mem_cons.mp h
    exact List.forall_mem_cons.mpr ⟨lineFeed_not_mem_plainLine hline _, ih hlines _⟩

theorem numberedLines_withPlainReferences (bytes : List UInt8) :
    numberedLines (withPlainReferences bytes) = plainLines [] (numberedLines bytes) := by
  refine numberedLines_intercalate (map_snd_plainLines [] _)
    (lineFeed_not_mem_plainLines (fun line hline => ?_) [])
  exact not_mem_of_mem_splitOn (List.fst_mem_of_mem_zipIdx hline)

end Lines

section Files

variable {policy : VertexPolicy} {path : Path} {bytes : List UInt8} {mesh : Mesh}

theorem ofBytes_withPlainReferences (h : ofBytes policy path bytes = .ok mesh) :
    ofBytes policy path (withPlainReferences bytes) = .ok mesh := by
  have hrun : (plainLines [] (numberedLines bytes)).foldlM (Reading.add policy)
      (readingOf path []) = .ok (readingOf path (numberedLines bytes)) :=
    foldlM_plainLines (not_offends_of_ofBytes h) []
  rw [← numberedLines_withPlainReferences] at hrun
  rw [ofBytes_of_foldlM hrun, eq_declared_of_ofBytes h]
  rfl

/-- A reference that counts back behind the first vertex before its line stays without vertex. -/
theorem triangulate_of_underflow {before after : List Line} {line : Line}
    {tokens : List (List Char)} {token : List Char} {reference : Int64}
    (h : ofBytes policy path bytes = .ok mesh)
    (hlines : numberedLines bytes = before ++ line :: after)
    (htokens : line.faceTokens? = some tokens) (h3 : 3 ≤ tokens.length) (htoken : token ∈ tokens)
    (hread : leadingInteger? token = some reference)
    (hunder : reference.toInt < -(declaredVertices before).length) :
    ∃ number index, mesh.triangulate =
      .error (.vertexOutOfRange path number index mesh.vertices.size) := by
  -- such a reference is below the negated count, which is therefore in the range of 64 bits
  have hle := reference.le_toInt
  let index := declaredIndex (declaredVertices before).length reference
  have hindex : index.toInt = (declaredVertices before).length + reference.toInt + 1 := by
    rw [toInt_declaredIndex (by omega), if_neg (by omega)]
  obtain ⟨face, hface, hmem⟩ : ∃ face, declaredFace? before line = some face ∧
      index ∈ face.indices := by
    rw [declaredFace?, htokens, Option.bind_some, if_pos h3]
    exact ⟨_, rfl, List.mem_map_of_mem (List.mem_filterMap.mpr ⟨token, htoken, hread⟩)⟩
  have hmesh := eq_declared_of_ofBytes h
  have hfaces : face ∈ mesh.faces := by
    rw [hmesh]
    exact List.mem_toArray.mpr (mem_declaredFaces_iff.mpr ⟨before, line, after, hlines, hface⟩)
  have hdangling : mesh.firstDangling? ≠ none := fun hnone => by
    have hin := (mesh.firstDangling?_eq_none_iff.mp hnone face hfaces index hmem).1
    omega
  obtain ⟨found, hfound⟩ := Option.ne_none_iff_exists'.mp hdangling
  have hfailure := mesh.failure?_triangulate
  have hpath : mesh.path = path := by rw [hmesh]; rfl
  rw [hfound, Option.map_some, failure?_eq_some_iff, hpath] at hfailure
  exact ⟨_, _, hfailure⟩

/-- Every reference means what its index means, and no other one is put in its place: a file that is
read gives the same mesh with plain references, and a face whose references count back too far
fails, whatever is declared behind it. The index itself is exact for every reference and every
number of vertices that 64 bits can count. -/
theorem references_exact (policy : VertexPolicy) (path : Path) (bytes : List UInt8) :
    (∀ mesh, ofBytes policy path bytes = .ok mesh →
      ofBytes policy path (withPlainReferences bytes) = .ok mesh ∧
      ∀ before line after tokens token reference, numberedLines bytes = before ++ line :: after →
        line.faceTokens? = some tokens → 3 ≤ tokens.length → token ∈ tokens →
        leadingInteger? token = some reference →
        reference.toInt < -(declaredVertices before).length →
        ∃ number index, mesh.triangulate =
          .error (.vertexOutOfRange path number index mesh.vertices.size)) ∧
    ∀ (count : Nat) (reference : Int64), count < 2 ^ 63 →
      (0 ≤ reference.toInt → absoluteIndex count reference = reference) ∧
      (reference.toInt < 0 → (Int64.ofNat count).toInt = count ∧
        (Int64.ofNat count + reference).toInt = count + reference.toInt ∧
        (absoluteIndex count reference).toInt = count + reference.toInt + 1) := by
  constructor
  · intro mesh h
    refine ⟨ofBytes_withPlainReferences h, ?_⟩
    intro before line after tokens token reference hlines htokens h3 htoken hread hunder
    exact triangulate_of_underflow h hlines htokens h3 htoken hread hunder
  · intro count reference hcount
    refine ⟨fun hnonneg => ?_, toInt_absoluteIndex hcount⟩
    rw [absoluteIndex_eq_declaredIndex, declaredIndex, if_pos hnonneg]

/-- Two vertices are declared before the first face, which refers to the third one before it,
and another one behind. -/
theorem references_exact_third :
    let file := fun text : String => Text.encode text.toList
    let bytes := file "v 0 0 0\nv 1 0 0\nf -1 +2/3/4\t-3\nv 0 1 0\nf 1/1 -2//5 -1\n"
    withPlainReferences bytes = file "v 0 0 0\nv 1 0 0\nf 2 2\t-3\nv 0 1 0\nf 1 2 3\n" ∧
      ∃ mesh, ofBytes .fail ⟨"a.obj"⟩ bytes = .ok mesh ∧
        ofBytes .fail ⟨"a.obj"⟩ (withPlainReferences bytes) = .ok mesh ∧
        ∃ number index, mesh.triangulate =
          .error (.vertexOutOfRange ⟨"a.obj"⟩ number index mesh.vertices.size) := by
  intro file bytes
  refine ⟨by decide +kernel, ?_⟩
  have hread : (ofBytes .fail ⟨"a.obj"⟩ bytes).toOption.isSome = true := by decide +kernel
  obtain ⟨mesh, hmesh⟩ := Option.isSome_iff_exists.mp hread
  have hmesh := toOption_eq_some_iff.mp hmesh
  obtain ⟨hplain, hunder⟩ := (references_exact .fail ⟨"a.obj"⟩ bytes).1 mesh hmesh
  have hsplit : numberedLines bytes =
      [(file "v 0 0 0", 1), (file "v 1 0 0", 2)] ++ (file "f -1 +2/3/4\t-3", 3) ::
        [(file "v 0 1 0", 4), (file "f 1/1 -2//5 -1", 5), ([], 6)] := by
    decide +kernel
  exact ⟨mesh, hmesh, hplain, hunder _ _ _ ["-1".toList, "+2/3/4".toList, "-3".toList] "-3".toList
    (-3) hsplit (by decide +kernel) (by decide) (by decide) (by decide +kernel) (by decide +kernel)⟩

end Files

end Mesh

end CollisionMesh
