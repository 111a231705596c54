import CollisionMesh.Proofs.ValidSurfaces
import CollisionMesh.Proofs.SourceReading

/-!
# The name of the input in generated text

The name of the input stands in a generated file as it is, at the end of a comment line. What
follows a line feed in the name is on lines of its own, and these are all that a generated file has
beside its comments and the lines of its array. A name without line feed stays in its comment, and
then the name makes no difference to the code.
-/

namespace CollisionMesh

set_option autoImplicit false

/-- Whether a line is a comment as a whole. -/
def isCommentLine (line : String) : Bool := "//".toList.isPrefixOf line.toList

/-- The lines that are more than comments. -/
def codeLines (lines : List String) : List String := lines.filter fun line => !isCommentLine line

/-- The lines that the name of a file goes on with after its first line feed. -/
def Path.linesAfterName (p : Path) : List String := ((p.fileName?.map textLines).getD []).tail

namespace SurfaceArray

/-- The lines that the generated file of an array is made of. -/
def IsLine (array : SurfaceArray) (line : String) : Prop :=
  isCommentLine line = true ∨ line = "" ∨
    (∃ header ∈ array.includes, line = "#include \"" ++ header ++ "\"") ∨
    line = "const struct SM64Surface " ++ Identifier.arrayName array.symbol ++ "[] = \x7b" ∨
    (∃ record ∈ array.records, line = "    " ++ record.text ∨ line = "    " ++ record.text ++ ",") ∨
    line = "\x7d;" ∨ line = array.countLine

instance (array : SurfaceArray) (line : String) : Decidable (array.IsLine line) :=
  inferInstanceAs (Decidable (_ ∨ _))

end SurfaceArray

/-- The array that a conversion writes. -/
def Conversion.array (conversion : Conversion) (options : Options) (input : Path) : SurfaceArray :=
  ⟨conversion.symbol, input.fileName?, options.includes, conversion.records⟩

theorem Path.linesAfterName_eq_nil_iff (p : Path) :
    p.linesAfterName = [] ↔ ∀ name ∈ p.fileName?, '\n' ∉ name.toList := by
  unfold linesAfterName
  cases p.fileName? with
  | none => simp
  | some name =>
    simp only [Option.map_some, Option.getD_some, Option.mem_def, Option.some.injEq, forall_eq']
    constructor
    · intro h hmem
      obtain ⟨before, after, hname⟩ := List.append_of_mem hmem
      rw [textLines, hname, List.splitOn_append_cons_self, List.map_append] at h
      have hlength := congrArg List.length h
      have hbefore := List.length_pos_iff.mpr (List.splitOn_ne_nil '\n' before)
      have hafter := List.length_pos_iff.mpr (List.splitOn_ne_nil '\n' after)
      simp only [List.length_tail, List.length_append, List.length_map, List.length_nil] at hlength
      omega
    · intro h
      rw [textLines_of_not_mem h]
      rfl

/-- Text before a text is text before its first line. -/
theorem exists_textLines_append {lead : String} (h : '\n' ∉ lead.toList) (text : String) :
    ∃ first, textLines (lead ++ text) = (lead ++ first) :: (textLines text).tail := by
  by_cases hmem : '\n' ∈ text.toList
  · obtain ⟨first, rest, htext, hfirst⟩ := List.eq_append_cons_of_mem hmem
    have hlead : '\n' ∉ lead.toList ++ first := by simp [h, hfirst]
    refine ⟨String.ofList first, ?_⟩
    rw [textLines, textLines, String.toList_append, htext, ← List.append_assoc,
      List.splitOn_append_cons_self_of_not_mem hlead,
      List.splitOn_append_cons_self_of_not_mem hfirst, List.map_cons, List.map_cons, List.tail_cons,
      String.ofList_append, String.ofList_toList]
  · have hwhole : '\n' ∉ (lead ++ text).toList := by simp [h, hmem]
    refine ⟨text, ?_⟩
    rw [textLines_of_not_mem hwhole, textLines_of_not_mem hmem]
    rfl

namespace SurfaceArray

variable {array : SurfaceArray}

theorem isCommentLine_append (text : String) : isCommentLine ("//" ++ text) = true := by
  rw [isCommentLine, String.toList_append, List.isPrefixOf_iff_prefix]
  exact List.prefix_append _ _

/-- A generated file is comments, then what the name of its source has left, then
the lines of its array. -/
theorem exists_comments (array : SurfaceArray) :
    ∃ comments, (∀ line ∈ comments, isCommentLine line = true) ∧
      textLines array.source = comments ++ ((array.sourceName.map textLines).getD []).tail ++
        textLines (unlines array.linesBelow) := by
  have hlines : array.lines =
      generatedBanner :: (array.sourceName.map sourceLine).toList ++ array.linesBelow := by
    simp only [lines, bannerLines, linesBelow, List.append_assoc]
    rfl
  have hbanner : isCommentLine generatedBanner = true := by decide
  rw [source, hlines, List.cons_append, textLines_unlines_cons (by decide)]
  cases array.sourceName with
  | none => exact ⟨[generatedBanner], by simpa using hbanner, rfl⟩
  | some name =>
    have hlead : '\n' ∉ "// Source: ".toList := by decide
    obtain ⟨first, hfirst⟩ := exists_textLines_append hlead name
    have hcomment := isCommentLine_append (" Source: " ++ first)
    rw [← String.append_assoc] at hcomment
    refine ⟨[generatedBanner, "// Source: " ++ first], ?_, ?_⟩
    · simpa using ⟨hbanner, hcomment⟩
    · simp [textLines_unlines_append, sourceLine, hfirst]

theorem isLine_recordLines {records : List SurfaceRecord}
    (h : ∀ record ∈ records, record ∈ array.records) :
    ∀ line ∈ recordLines records, array.IsLine line := by
  have hline : ∀ record ∈ array.records, array.IsLine ("    " ++ record.text) ∧
      array.IsLine ("    " ++ record.text ++ ",") := fun record hmem =>
    ⟨.inr (.inr (.inr (.inr (.inl ⟨record, hmem, .inl rfl⟩)))),
      .inr (.inr (.inr (.inr (.inl ⟨record, hmem, .inr rfl⟩))))⟩
  fun_induction recordLines records with
  | case1 => simp
  | case2 record => simpa using (hline record (h record List.mem_cons_self)).1
  | case3 record rest hne ih =>
    have hfirst := (hline record (h record List.mem_cons_self)).2
    have hrest := ih fun other hother => h other (List.mem_cons_of_mem _ hother)
    exact List.forall_mem_cons.mpr ⟨hfirst, hrest⟩

theorem isLine_linesBelow (array : SurfaceArray) :
    ∀ line ∈ array.linesBelow, array.IsLine line := by
  have hblank : array.IsLine "" := .inr (.inl rfl)
  have hcount : array.IsLine ("// Surfaces: " ++ array.records.length.repr) := by
    have hcomment := isCommentLine_append (" Surfaces: " ++ array.records.length.repr)
    rw [← String.append_assoc] at hcomment
    exact .inl hcomment
  have hheaders : ∀ line ∈ array.includeLines, array.IsLine line := by
    unfold includeLines
    intro line hline
    split at hline
    · cases hline
    · rcases List.mem_append.mp hline with hline | hline
      · obtain ⟨header, hmem, rfl⟩ := List.mem_map.mp hline
        exact .inr (.inr (.inl ⟨header, hmem, rfl⟩))
      · rw [List.mem_singleton.mp hline]
        exact hblank
  have hrecords := isLine_recordLines fun record (hmem : record ∈ array.records) => hmem
  have hopening : array.IsLine
      ("const struct SM64Surface " ++ Identifier.arrayName array.symbol ++ "[] = \x7b") :=
    .inr (.inr (.inr (.inl rfl)))
  have hclosing : array.IsLine "\x7d;" := .inr (.inr (.inr (.inr (.inr (.inl rfl)))))
  have hcountLine : array.IsLine array.countLine := .inr (.inr (.inr (.inr (.inr (.inr rfl)))))
  simp only [linesBelow, definitionLines, List.forall_mem_append, List.forall_mem_cons,
    List.not_mem_nil, IsEmpty.forall_iff, implies_true, and_true]
  exact ⟨⟨⟨⟨hcount, hblank⟩, hheaders⟩, ⟨hopening, hrecords⟩, hclosing, hblank⟩, hcountLine⟩

theorem textLines_linesBelow (hsymbol : Identifier.isIdentifier array.symbol = true)
    (hincludes : ∀ header ∈ array.includes, '\n' ∉ header.toList)
    (hrecords : ∀ record ∈ array.records, record.Named) :
    textLines (unlines array.linesBelow) = array.linesBelow ++ [""] := by
  -- without the name of its source the array is readable, and the lines below the name are the same
  have hreadable : Readable { array with sourceName := none } :=
    ⟨hsymbol, nofun, hincludes, hrecords⟩
  refine textLines_unlines fun line hline => lineFeed_not_mem_lines hreadable line ?_
  exact List.mem_cons_of_mem generatedBanner hline

end SurfaceArray

namespace Mesh

theorem eq_of_triangulate {mesh other : Mesh} {ts ts' : List (Triangle Binary64)}
    (h : mesh.triangulate = .ok ts) (h' : other.triangulate = .ok ts')
    (hvertices : other.vertices = mesh.vertices) (hfaces : other.faces = mesh.faces) :
    ts' = ts := by
  -- the path of a mesh, in which the two may differ, is only read for failures
  have hplaces : other.fanPlaces = mesh.fanPlaces := by rw [fanPlaces, hfaces, fanPlaces]
  have hcorners : other.placeVertices = mesh.placeVertices := by
    have hcorner : ∀ face, other.cornerVertex? face = mesh.cornerVertex? face := by
      intro face
      funext corner
      rw [cornerVertex?, hvertices, cornerVertex?]
    funext place
    rw [placeVertices, hcorner, placeVertices]
  have hmap := map_triangulate h'
  rw [hplaces, hcorners, ← map_triangulate h] at hmap
  refine List.map_injective_iff.mpr ?_ hmap
  rintro ⟨⟨a, b, c⟩, tag⟩ ⟨⟨a', b', c'⟩, tag'⟩ heq
  simpa [Corners.toList, and_assoc] using heq

end Mesh

namespace FileSystem

variable {fs other : FileSystem} {options : Options} {input input' : Path}
  {conversion conversion' : Conversion}

theorem exists_read_of_load {policy : VertexPolicy} {mesh : Mesh}
    (h : Mesh.load fs policy input = .ok mesh) :
    ∃ content, fs.read input = .ok content ∧
      mesh = Mesh.declared input (Mesh.numberedLines content.data.toList) := by
  obtain ⟨content, hread, h⟩ := (bind_eq_ok_iff _ _ _).mp h
  exact ⟨content, eq_ok_of_mapError_eq_ok hread, Mesh.eq_declared_of_ofBytes h⟩

theorem exists_records_of_convert (h : fs.convert options input = .ok conversion) :
    ∃ content ts, fs.read input = .ok content ∧
      (Mesh.declared input (Mesh.numberedLines content.data.toList)).triangulate = .ok ts ∧
      conversion.records = ts.map fun t => SurfaceRecord.ofTriangle options (t.toGrid options) := by
  rw [convert_eq_map] at h
  obtain ⟨⟨mesh, ts⟩, hfront, rfl⟩ := exists_of_map_eq_ok h
  obtain ⟨hload, htriangulate, _⟩ := triangulate_of_triangles hfront
  obtain ⟨content, hread, rfl⟩ := exists_read_of_load hload
  exact ⟨content, ts, hread, htriangulate, by simp only [conversionOf]⟩

theorem records_eq_of_convert (hread : other.read input' = fs.read input)
    (h : fs.convert options input = .ok conversion)
    (h' : other.convert options input' = .ok conversion') :
    conversion'.records = conversion.records := by
  obtain ⟨content, ts, hcontent, hts, hrecords⟩ := exists_records_of_convert h
  obtain ⟨content', ts', hcontent', hts', hrecords'⟩ := exists_records_of_convert h'
  rw [hcontent, hcontent'] at hread
  obtain rfl : content' = content := Except.ok.inj hread
  have hsame : ts' = ts := Mesh.eq_of_triangulate hts hts' rfl rfl
  rw [hrecords', hrecords, hsame]

theorem exists_records_of_convertTriangles
    (h : fs.convertTriangles options input = .ok conversion) :
    ∃ text ts, fs.readText input = .ok text ∧ TriangleList.ofText? text = some ts ∧
      conversion.records = ts.map fun t => SurfaceRecord.ofTriangle options ⟨t.toGrid, none⟩ := by
  obtain ⟨_, _, h⟩ := (bind_eq_ok_iff _ _ _).mp h
  obtain ⟨ts, hload, h⟩ := (bind_eq_ok_iff _ _ _).mp h
  obtain ⟨text, htext, hload⟩ := (bind_eq_ok_iff _ _ _).mp hload
  split at h
  · cases h
  obtain rfl : stagedConversion options input ts = conversion := Except.ok.inj h
  refine ⟨text, ts, eq_ok_of_mapError_eq_ok htext, ?_, by simp only [stagedConversion]⟩
  split at hload
  · rename_i hlist
    cases hload
    exact hlist
  · cases hload

theorem records_eq_of_convertTriangles (hread : other.read input' = fs.read input)
    (h : fs.convertTriangles options input = .ok conversion)
    (h' : other.convertTriangles options input' = .ok conversion') :
    conversion'.records = conversion.records := by
  obtain ⟨text, ts, htext, hts, hrecords⟩ := exists_records_of_convertTriangles h
  obtain ⟨text', ts', htext', hts', hrecords'⟩ := exists_records_of_convertTriangles h'
  rw [readText, hread, ← readText, htext] at htext'
  obtain rfl : text = text' := Except.ok.inj htext'
  rw [hts] at hts'
  rw [hrecords', hrecords, Option.some.inj hts']

end FileSystem

theorem Conversion.linesBelow_array {conversion conversion' : Conversion}
    (hsymbol : conversion'.symbol = conversion.symbol)
    (hrecords : conversion'.records = conversion.records) (options : Options)
    (input input' : Path) :
    (conversion'.array options input').linesBelow =
      (conversion.array options input).linesBelow := by
  rw [Conversion.array, Conversion.array, hsymbol, hrecords]
  exact SurfaceArray.linesBelow_mk _ _ _ _ _

namespace Conversion.Valid

variable {options : Options} {input : Path} {conversion : Conversion}

theorem named (h : conversion.Valid options input) :
    ∀ record ∈ (conversion.array options input).records, record.Named :=
  fun record hrecord => ⟨(h.records record hrecord).surface, (h.records record hrecord).terrain⟩

theorem exists_comments (h : conversion.Valid options input)
    (hincludes : ∀ header ∈ options.includes, '\n' ∉ header.toList) :
    ∃ comments, (∀ line ∈ comments, isCommentLine line = true) ∧
      textLines conversion.source =
        comments ++ input.linesAfterName ++
          ((conversion.array options input).linesBelow ++ [""]) := by
  obtain ⟨comments, hcomments, hlines⟩ := (conversion.array options input).exists_comments
  rw [SurfaceArray.textLines_linesBelow h.symbol hincludes h.named] at hlines
  refine ⟨comments, hcomments, ?_⟩
  rw [h.source]
  exact hlines

/-- The lines after a line feed in the name are the only ones that can be of another kind. -/
theorem forall_isLine_iff (h : conversion.Valid options input)
    (hincludes : ∀ header ∈ options.includes, '\n' ∉ header.toList) :
    (∀ line ∈ textLines conversion.source, (conversion.array options input).IsLine line) ↔
      ∀ line ∈ input.linesAfterName, (conversion.array options input).IsLine line := by
  obtain ⟨comments, hcomments, hlines⟩ := h.exists_comments hincludes
  have hbelow := (conversion.array options input).isLine_linesBelow
  have hblank : (conversion.array options input).IsLine "" := .inr (.inl rfl)
  rw [hlines]
  simp only [List.forall_mem_append, List.forall_mem_singleton]
  exact ⟨fun hall => hall.1.2, fun hname => ⟨⟨fun line hline => .inl (hcomments line hline), hname⟩,
    hbelow, hblank⟩⟩

theorem codeLines_eq (h : conversion.Valid options input)
    (hincludes : ∀ header ∈ options.includes, '\n' ∉ header.toList) :
    codeLines (textLines conversion.source) =
      codeLines input.linesAfterName ++
        codeLines ((conversion.array options input).linesBelow ++ [""]) := by
  obtain ⟨comments, hcomments, hlines⟩ := h.exists_comments hincludes
  have hnone : codeLines comments = [] := by
    rw [codeLines, List.filter_eq_nil_iff]
    exact fun line hline => by simp [hcomments line hline]
  rw [hlines, codeLines, List.filter_append, List.filter_append, ← codeLines, hnone]
  rfl

end Conversion.Valid

namespace FileSystem

variable {fs : FileSystem} {options : Options} {input : Path} {conversion : Conversion}
  {convert : FileSystem → Options → Path → Except Failure Conversion}

/-- On both ways to a generated file: each of its lines is of a kind that its array has, just if
this holds of the lines that the name of the input goes on with after a line feed. And two
conversions of the same content with the same options and symbol have the same code just if these
lines of the two names have. -/
theorem inputName_confined_iff
    (hway : convert = FileSystem.convert ∨ convert = FileSystem.convertTriangles)
    (hincludes : ∀ header ∈ options.includes, '\n' ∉ header.toList)
    (h : convert fs options input = .ok conversion) :
    ((∀ line ∈ textLines conversion.source, (conversion.array options input).IsLine line) ↔
      ∀ line ∈ input.linesAfterName, (conversion.array options input).IsLine line) ∧
    ∀ (other : FileSystem) (input' : Path) (conversion' : Conversion),
      other.read input' = fs.read input → convert other options input' = .ok conversion' →
      conversion'.symbol = conversion.symbol →
      (codeLines (textLines conversion'.source) = codeLines (textLines conversion.source) ↔
        codeLines input'.linesAfterName = codeLines input.linesAfterName) := by
  have hvalid : ∀ (now : FileSystem) (p : Path) (converted : Conversion),
      convert now options p = .ok converted → converted.Valid options p := by
    rcases hway with rfl | rfl
    · exact fun _ _ _ => valid_of_convert
    · exact fun _ _ _ => valid_of_convertTriangles
  have hthis := hvalid fs input conversion h
  refine ⟨hthis.forall_isLine_iff hincludes, fun other input' conversion' hread h' hsymbol => ?_⟩
  have hrecords : conversion'.records = conversion.records := by
    rcases hway with rfl | rfl
    · exact records_eq_of_convert hread h h'
    · exact records_eq_of_convertTriangles hread h h'
  have hbelow := Conversion.linesBelow_array hsymbol hrecords options input input'
  rw [(hvalid other input' conversion' h').codeLines_eq hincludes, hthis.codeLines_eq hincludes,
    hbelow]
  exact List.append_left_inj _

/-- One triangle under three names, which give the same symbol; the last of them has a line feed. -/
def threeNames : FileSystem :=
  let triangle : Node := .file "v 0 0 0\nv 1 0 0\nv 0 1 0\nf 1 2 3\n".toUTF8
  ⟨[(["a int b;.obj"], triangle), (["a\"int b;.obj"], triangle), (["a\nint b;.obj"], triangle)], []⟩

/-- Blanks and a quotation mark do no harm. -/
theorem inputName_confined_iff_quoted :
    ∃ conversion conversion', threeNames.convert Options.default ⟨"a int b;.obj"⟩ = .ok conversion ∧
      threeNames.convert Options.default ⟨"a\"int b;.obj"⟩ = .ok conversion' ∧
      (∀ line ∈ textLines conversion.source,
        (conversion.array Options.default ⟨"a int b;.obj"⟩).IsLine line) ∧
      codeLines (textLines conversion'.source) = codeLines (textLines conversion.source) := by
  obtain ⟨conversion, h, hsymbol⟩ := exists_of_map_eq_ok
    (show (threeNames.convert Options.default ⟨"a int b;.obj"⟩).map Conversion.symbol =
      .ok "a_int_b_" by decide +kernel)
  obtain ⟨conversion', h', hsymbol'⟩ := exists_of_map_eq_ok
    (show (threeNames.convert Options.default ⟨"a\"int b;.obj"⟩).map Conversion.symbol =
      .ok "a_int_b_" by decide +kernel)
  have hincludes : ∀ header ∈ Options.default.includes, '\n' ∉ header.toList := by decide
  have hnone : (⟨"a int b;.obj"⟩ : Path).linesAfterName = [] :=
    (Path.linesAfterName_eq_nil_iff _).mpr (by decide)
  have hnone' : (⟨"a\"int b;.obj"⟩ : Path).linesAfterName = [] :=
    (Path.linesAfterName_eq_nil_iff _).mpr (by decide)
  obtain ⟨hlines, hcode⟩ := inputName_confined_iff (.inl rfl) hincludes h
  refine ⟨conversion, conversion', h, h', hlines.mpr (by simp [hnone]), ?_⟩
  exact (hcode threeNames ⟨"a\"int b;.obj"⟩ conversion' rfl h' (hsymbol'.trans hsymbol.symm)).mpr
    (by rw [hnone, hnone'])

/-- What follows a line feed in the name is code: a declaration that the mesh
has nothing to do with. -/
theorem inputName_leaks :
    ∃ conversion conversion', threeNames.convert Options.default ⟨"a int b;.obj"⟩ = .ok conversion ∧
      threeNames.convert Options.default ⟨"a\nint b;.obj"⟩ = .ok conversion' ∧
      threeNames.read ⟨"a\nint b;.obj"⟩ = threeNames.read ⟨"a int b;.obj"⟩ ∧
      conversion'.symbol = conversion.symbol ∧
      "int b;.obj" ∈ textLines conversion'.source ∧
      ¬(conversion'.array Options.default ⟨"a\nint b;.obj"⟩).IsLine "int b;.obj" ∧
      codeLines (textLines conversion'.source) ≠ codeLines (textLines conversion.source) := by
  obtain ⟨conversion, h, hsymbol⟩ := exists_of_map_eq_ok
    (show (threeNames.convert Options.default ⟨"a int b;.obj"⟩).map Conversion.symbol =
      .ok "a_int_b_" by decide +kernel)
  obtain ⟨conversion', h', hsymbol'⟩ := exists_of_map_eq_ok
    (show (threeNames.convert Options.default ⟨"a\nint b;.obj"⟩).map Conversion.symbol =
      .ok "a_int_b_" by decide +kernel)
  have hkind : (threeNames.convert Options.default ⟨"a\nint b;.obj"⟩).map (fun converted =>
      decide ((converted.array Options.default ⟨"a\nint b;.obj"⟩).IsLine "int b;.obj")) =
        .ok false := by
    decide +kernel
  rw [h'] at hkind
  have hline : ¬(conversion'.array Options.default ⟨"a\nint b;.obj"⟩).IsLine "int b;.obj" :=
    of_decide_eq_false (Except.ok.inj hkind)
  have hincludes : ∀ header ∈ Options.default.includes, '\n' ∉ header.toList := by decide
  have hafter : (⟨"a\nint b;.obj"⟩ : Path).linesAfterName = ["int b;.obj"] := by decide +kernel
  have hsource : "int b;.obj" ∈ textLines conversion'.source := by
    obtain ⟨comments, _, hlines⟩ := (valid_of_convert h').exists_comments hincludes
    rw [hlines, hafter]
    simp
  have hsame := hsymbol'.trans hsymbol.symm
  have hread : threeNames.read ⟨"a\nint b;.obj"⟩ = threeNames.read ⟨"a int b;.obj"⟩ := by
    decide +kernel
  have hbelow :=
    Conversion.linesBelow_array hsame (records_eq_of_convert hread h h') Options.default
    ⟨"a int b;.obj"⟩ ⟨"a\nint b;.obj"⟩
  refine ⟨conversion, conversion', h, h', hread, hsame, hsource, hline, ?_⟩
  rw [(valid_of_convert h').codeLines_eq hincludes, (valid_of_convert h).codeLines_eq hincludes,
    hbelow, hafter]
  intro hcode
  exact absurd (List.append_left_inj _ |>.mp hcode) (by decide +kernel)

end FileSystem

end CollisionMesh
