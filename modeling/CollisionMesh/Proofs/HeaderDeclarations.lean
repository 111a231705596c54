import CollisionMesh.Proofs.ConfinedNames
import CollisionMesh.Proofs.ManifestHeader

/-!
# Declarations of the header

A reader of headers, which finds the names that they declare, beside the one of generated files,
which finds the names that those define. A name ends in what it is built for, an array or a count,
so two names that are equal are built for the same on the same symbol. Hence the header of a build
declares what the files of the meshes that have success define, each name once, and nothing else.
-/

namespace CollisionMesh

set_option autoImplicit false

open FileSystem

theorem Identifier.arrayName_ne_countName (symbol other : String) :
    arrayName symbol ≠ countName other := by
  intro h
  -- whatever the symbols are, the one ends in `s` and the other in `t`
  have hlast := congrArg (fun text : String => text.toList.getLast?) h
  simp [arrayName, countName] at hlast

/-- A name of generated code, and what it names. -/
inductive Declaration where
  | array (name : String)
  | count (name : String)
  deriving DecidableEq, Repr

namespace Declaration

def name : Declaration → String
  | array name => name
  | count name => name

/-- The names that are built on a symbol. -/
def ofSymbol (symbol : String) : List Declaration :=
  [array (Identifier.arrayName symbol), count (Identifier.countName symbol)]

/-- What stands between the fixed ends of a line. -/
def between? (lead tail line : String) : Option String :=
  ((after? lead line.toList).bind fun rest => rest.dropSuffix? tail.toList).map String.ofList

def ofLine? (line : String) : Option Declaration :=
  ((between? "extern const struct SM64Surface " "[];" line).map array) <|>
    ((between? "extern const size_t " ";" line).map count)

def ofItem? : SourceItem → Option Declaration
  | .array name => some (array name)
  | .elementCount name _ _ => some (count name)
  | _ => none

end Declaration

def declarations (text : String) : List Declaration :=
  (textLines text).filterMap Declaration.ofLine?

/-- The lines of a generated file that are below all names of files. -/
def SurfaceArray.definingLines (array : SurfaceArray) : List String :=
  array.definitionLines ++ [array.countLine]

def definitions (text : String) : List Declaration :=
  (sourceItems text).filterMap Declaration.ofItem?

namespace Declaration

section Reading

theorem between?_append (lead name tail : String) :
    between? lead tail (lead ++ name ++ tail) = some name := by
  have hlead : after? lead (lead ++ name ++ tail).toList = some (name.toList ++ tail.toList) := by
    rw [after?, List.dropPrefix?_eq_some_iff]
    exact ⟨lead.toList, by simp, by simp⟩
  have htail : (name.toList ++ tail.toList).dropSuffix? tail.toList = some name.toList := by
    rw [List.dropSuffix?_eq_some_iff]
    exact ⟨tail.toList, rfl, by simp⟩
  rw [between?, hlead, Option.bind_some, htail, Option.map_some, String.ofList_toList]

theorem ofLine?_array (name : String) :
    ofLine? ("extern const struct SM64Surface " ++ name ++ "[];") = some (array name) := by
  rw [ofLine?, between?_append]
  rfl

theorem ofLine?_count (name : String) :
    ofLine? ("extern const size_t " ++ name ++ ";") = some (count name) := by
  have hother : between? "extern const struct SM64Surface " "[];"
      ("extern const size_t " ++ name ++ ";") = none := by
    simp [between?, after?, List.dropPrefix?]
  rw [ofLine?, hother, between?_append]
  rfl

theorem ofLine?_empty : ofLine? "" = none := by decide

theorem filterMap_declarationLines (symbol : String) :
    (declarationLines symbol).filterMap ofLine? = ofSymbol symbol := by
  rw [declarationLines, List.filterMap_cons_none ofLine?_empty,
    List.filterMap_cons_some (ofLine?_array _), List.filterMap_cons_some (ofLine?_count _),
    List.filterMap_nil]
  rfl

theorem lineFeed_not_mem_declarationLines {symbol : String}
    (h : Identifier.isIdentifier symbol = true) :
    ∀ line ∈ declarationLines symbol, '\n' ∉ line.toList := by
  have harray := (isToken_of_isIdentifier (Identifier.isIdentifier_arrayName h)).lineFeed_not_mem
  have hcount := (isToken_of_isIdentifier (Identifier.isIdentifier_countName h)).lineFeed_not_mem
  unfold declarationLines
  generalize Identifier.arrayName symbol = name at harray ⊢
  generalize Identifier.countName symbol = number at hcount ⊢
  simp [harray, hcount]

/-- The lines of a header above its declarations. -/
def openingLines : List String :=
  [generatedBanner, "", "#pragma once", "", "#include <stddef.h>", "#include \"libsm64.h\""]

theorem declarations_declarationHeader {symbols : List String}
    (h : ∀ symbol ∈ symbols, Identifier.isIdentifier symbol = true) :
    declarations (declarationHeader symbols) = symbols.flatMap ofSymbol := by
  have hlines : ∀ line ∈ openingLines ++ symbols.flatMap declarationLines, '\n' ∉ line.toList := by
    rw [List.forall_mem_append]
    refine ⟨by decide, fun line hline => ?_⟩
    obtain ⟨symbol, hsymbol, hmem⟩ := List.mem_flatMap.mp hline
    exact lineFeed_not_mem_declarationLines (h symbol hsymbol) line hmem
  have htext : declarationHeader symbols =
      unlines (openingLines ++ symbols.flatMap declarationLines) := rfl
  have hopening : openingLines.filterMap ofLine? = [] := by decide
  rw [declarations, htext, textLines_unlines hlines, List.filterMap_append, List.filterMap_append,
    hopening, List.filterMap_flatMap, List.filterMap_cons_none ofLine?_empty, List.nil_append]
  simp only [filterMap_declarationLines, List.filterMap_nil, List.append_nil]

variable {array : SurfaceArray}

/-- Whatever else the file of an array shows, the names of its symbol are defined there. -/
theorem mem_definitions_source (h : Identifier.isIdentifier array.symbol = true)
    {declaration : Declaration} (hmem : declaration ∈ ofSymbol array.symbol) :
    declaration ∈ definitions array.source := by
  have hdefines : ∀ line ∈ textLines array.source, ∀ item, SourceItem.ofLine? line = some item →
      ∀ found, ofItem? item = some found → found ∈ definitions array.source := by
    intro line hline item hitem found hfound
    exact List.mem_filterMap.mpr ⟨item, List.mem_filterMap.mpr ⟨line, hline, hitem⟩, hfound⟩
  obtain ⟨harray, hcount⟩ := SurfaceArray.defines_source (Eq.refl array.symbol) h
  rcases List.mem_pair.mp hmem with rfl | rfl
  · exact hdefines _ harray _ (SourceItem.ofLine?_array h) _ rfl
  · exact hdefines _ hcount _ (SourceItem.ofLine?_elementCount h) _ rfl

theorem definitions_definingLines (h : Identifier.isIdentifier array.symbol = true)
    (hrecords : ∀ record ∈ array.records, record.Named) :
    definitions (unlines array.definingLines) = ofSymbol array.symbol := by
  have hlines : ∀ line ∈ array.definingLines, '\n' ∉ line.toList := by
    simp only [SurfaceArray.definingLines, SurfaceArray.definitionLines, List.forall_mem_append,
      List.forall_mem_singleton]
    exact ⟨⟨⟨SurfaceArray.lineFeed_not_mem_definition h,
      SurfaceArray.lineFeed_not_mem_recordLines hrecords⟩, by decide⟩,
      SurfaceArray.lineFeed_not_mem_countLine h⟩
  obtain ⟨_, hempty, hbrace⟩ := SourceItem.ofLine?_plain
  have harray := SourceItem.ofLine?_array h
  have hcount := SourceItem.ofLine?_elementCount h
  have hitems := SurfaceArray.items_recordLines hrecords
  have hnone : (SurfaceArray.recordItems array.records).filterMap ofItem? = [] :=
    SurfaceArray.filterMap_recordItems (fun _ _ => rfl) array.records
  rw [definitions, sourceItems, textLines_unlines hlines]
  simp only [SurfaceArray.definingLines, SurfaceArray.definitionLines, List.filterMap_append,
    List.filterMap_cons, List.filterMap_nil, hempty, hbrace, harray, hcount, hitems, hnone, ofItem?,
    ofSymbol]
  rfl

theorem definitions_source (h : array.Readable) :
    definitions array.source = ofSymbol array.symbol := by
  rw [definitions, SurfaceArray.filterMap_sourceItems h,
    SurfaceArray.filterMap_recordItems fun _ _ => rfl]
  simp [ofItem?, ofSymbol]

end Reading

section Names

variable {symbol other : String} {a b : Declaration}

theorem eq_of_name_eq (ha : a ∈ ofSymbol symbol) (hb : b ∈ ofSymbol other) (h : a.name = b.name) :
    symbol = other ∧ a = b := by
  rcases List.mem_pair.mp ha with rfl | rfl <;> rcases List.mem_pair.mp hb with rfl | rfl
  · exact ⟨(String.append_left_inj _).mp h, congrArg array h⟩
  · exact absurd h (Identifier.arrayName_ne_countName symbol other)
  · exact absurd h.symm (Identifier.arrayName_ne_countName other symbol)
  · exact ⟨(String.append_left_inj _).mp h, congrArg count h⟩

theorem nodup_names_flatMap {symbols : List String} (h : symbols.Nodup) :
    ((symbols.flatMap ofSymbol).map name).Nodup := by
  rw [List.map_flatMap, List.nodup_flatMap]
  constructor
  · intro symbol _
    simpa [ofSymbol, name] using Identifier.arrayName_ne_countName symbol symbol
  · refine h.imp ?_
    intro symbol other hne text hmem hmem'
    obtain ⟨a, ha, rfl⟩ := List.mem_map.mp hmem
    obtain ⟨b, hb, hname⟩ := List.mem_map.mp hmem'
    exact hne (eq_of_name_eq ha hb hname.symm).1

theorem mem_of_name_mem_flatMap {symbols : List String} (ha : a ∈ ofSymbol symbol)
    (h : a.name ∈ (symbols.flatMap ofSymbol).map name) : symbol ∈ symbols := by
  obtain ⟨b, hmem, hname⟩ := List.mem_map.mp h
  obtain ⟨other, hother, hb⟩ := List.mem_flatMap.mp hmem
  rw [(eq_of_name_eq ha hb hname.symm).1]
  exact hother

end Names

end Declaration

namespace Manifest

section Succeeded

variable {manifest : Manifest} {outcomes : List (Except Failure Artifact)}

def succeeded (manifest : Manifest) (outcomes : List (Except Failure Artifact)) : List String :=
  ((manifest.meshes.zip outcomes).filter fun entry => entry.2.isOk).map fun entry => entry.1.1

theorem succeeded_sublist (h : outcomes.length = manifest.meshes.length) :
    (manifest.succeeded outcomes).Sublist (manifest.meshes.map Prod.fst) := by
  rw [← map_name_zip h]
  exact List.filter_sublist.map _

theorem length_succeeded (h : outcomes.length = manifest.meshes.length) :
    (manifest.succeeded outcomes).length = outcomes.countP Except.isOk := by
  have hzip : (manifest.meshes.zip outcomes).map Prod.snd = outcomes :=
    List.map_snd_zip (Nat.le_of_eq h)
  rw [succeeded, List.length_map, ← List.countP_eq_length_filter]
  conv => rhs; rw [← hzip, List.countP_map]
  rfl

/-- A name stands for one mesh, so the name of a mesh that fails is not that of
one that has success. -/
theorem not_mem_succeeded (hnames : (manifest.meshes.map Prod.fst).Nodup)
    (h : outcomes.length = manifest.meshes.length) {mesh : String × MeshEntry} {failure : Failure}
    (hmem : (mesh, .error failure) ∈ manifest.meshes.zip outcomes) :
    mesh.1 ∉ manifest.succeeded outcomes := by
  intro hin
  obtain ⟨entry, hentry, hname⟩ := List.mem_map.mp hin
  obtain ⟨hentry, hok⟩ := List.mem_filter.mp hentry
  rw [← map_name_zip h] at hnames
  rw [List.inj_on_of_nodup_map hnames hentry hmem hname] at hok
  cases hok

theorem map_symbol_artifacts
    (h : List.Forall₂ (fun mesh outcome => ∀ artifact, outcome = .ok artifact →
      artifact.symbol = mesh.1)
      manifest.meshes outcomes) :
    (outcomes.filterMap Except.toOption).map Artifact.symbol = manifest.succeeded outcomes := by
  unfold succeeded
  generalize manifest.meshes = meshes at h
  induction h with
  | nil => rfl
  | @cons mesh outcome _ _ hmesh _ ih =>
    cases outcome with
    | error failure => exact ih
    | ok artifact =>
      exact congrArg₂ List.cons (hmesh artifact rfl) ih

end Succeeded

section Agreement

variable {manifest : Manifest} {fs base last : FileSystem} {directory path : Path}
  {order : List Nat} {mesh : String × MeshEntry} {artifact : Artifact}
  {outcomes : List (Except Failure Artifact)}

/-- Whether the names of files that the file of a mesh shows are single lines. -/
def ShowsLines (manifest : Manifest) (mesh : String × MeshEntry) : Prop :=
  (∀ name ∈ (manifest.sourcePath mesh.2).fileName?, '\n' ∉ name.toList) ∧
    ∀ header ∈ manifest.defaults.includes, '\n' ∉ header.toList

def arrayOf (manifest : Manifest) (mesh : String × MeshEntry) (conversion : Conversion) :
    SurfaceArray :=
  conversion.array (mesh.2.options mesh.1 manifest.defaults) (manifest.sourcePath mesh.2)

/-- What the file of a mesh that has success defines: below the names of files that it
shows, and as a whole. -/
structure DefinesSymbol (manifest : Manifest) (base last : FileSystem) (directory : Path)
    (order : List Nat) (mesh : String × MeshEntry) (artifact : Artifact) : Prop where
  path : artifact.path = outputPath directory mesh.1
  file : ∃ conversion : Conversion, manifest.ConvertedInTurn base directory order mesh conversion ∧
    (last.read artifact.path = .ok conversion.source.toUTF8 ↔
      ¬manifest.HeaderAt last directory artifact.path) ∧
    conversion.source = (manifest.arrayOf mesh conversion).source ∧
    definitions (unlines (manifest.arrayOf mesh conversion).definingLines) =
      Declaration.ofSymbol mesh.1 ∧
    (∀ declaration ∈ Declaration.ofSymbol mesh.1, declaration ∈ definitions conversion.source) ∧
    (manifest.ShowsLines mesh → definitions conversion.source = Declaration.ofSymbol mesh.1)

/-- How the text of a header fits the outcomes of the meshes and their files. -/
structure HeaderAgrees (manifest : Manifest) (base last : FileSystem) (directory : Path)
    (order : List Nat) (outcomes : List (Except Failure Artifact)) (text : String) : Prop where
  complete : outcomes.length = manifest.meshes.length
  text_eq : text = declarationHeader (manifest.succeeded outcomes)
  declared : declarations text = (manifest.succeeded outcomes).flatMap Declaration.ofSymbol
  ascending : (manifest.succeeded outcomes).Pairwise (· < ·)
  distinct : ((declarations text).map Declaration.name).Nodup
  count : (declarations text).length = 2 * outcomes.countP Except.isOk
  failed : ∀ mesh failure, (mesh, .error failure) ∈ manifest.meshes.zip outcomes →
    ∀ declaration ∈ Declaration.ofSymbol mesh.1,
      declaration.name ∉ (declarations text).map Declaration.name
  defined : ∀ mesh artifact, (mesh, .ok artifact) ∈ manifest.meshes.zip outcomes →
    manifest.DefinesSymbol base last directory order mesh artifact

theorem definesSymbol_of_delivers (hname : Identifier.isIdentifier mesh.1 = true)
    (h : manifest.Delivers base last directory order mesh artifact) :
    manifest.DefinesSymbol base last directory order mesh artifact := by
  obtain ⟨conversion, _, hturn, _, _, _, _, hread⟩ := h.file
  refine ⟨h.path, conversion, hturn, hread, ?_⟩
  obtain ⟨_, _, _, hconvert⟩ := hturn
  have hvalid := valid_of_convert hconvert
  have hsymbol : (manifest.arrayOf mesh conversion).symbol = mesh.1 :=
    hvalid.symbol_eq.trans (symbolFor_options hname _ _)
  have hsource : conversion.source = (manifest.arrayOf mesh conversion).source := hvalid.source
  have hidentifier : Identifier.isIdentifier (manifest.arrayOf mesh conversion).symbol = true :=
    hvalid.symbol
  have hrecords : ∀ record ∈ (manifest.arrayOf mesh conversion).records, record.Named :=
    fun record hmem => ⟨(hvalid.records record hmem).surface, (hvalid.records record hmem).terrain⟩
  rw [hsource, ← hsymbol]
  exact ⟨rfl, Declaration.definitions_definingLines hidentifier hrecords,
    fun _ hmem => Declaration.mem_definitions_source hidentifier hmem,
    fun hlines => Declaration.definitions_source ⟨hidentifier, hlines.1, hlines.2, hrecords⟩⟩

theorem headerAgrees_of_delivers (hnames : (manifest.meshes.map Prod.fst).Pairwise (· < ·))
    (hidentifiers : ∀ mesh ∈ manifest.meshes, Identifier.isIdentifier mesh.1 = true)
    (h : List.Forall₂ (fun mesh outcome => ∀ artifact, outcome = .ok artifact →
      manifest.Delivers base last directory order mesh artifact) manifest.meshes outcomes) :
    manifest.HeaderAgrees base last directory order outcomes
      (headerOf (outcomes.filterMap Except.toOption)) := by
  have hlength : outcomes.length = manifest.meshes.length := h.length_eq.symm
  have hascending : (manifest.succeeded outcomes).Pairwise (· < ·) :=
    hnames.sublist (succeeded_sublist hlength)
  have hnodup : (manifest.meshes.map Prod.fst).Nodup := hnames.nodup
  have htext : headerOf (outcomes.filterMap Except.toOption) =
      declarationHeader (manifest.succeeded outcomes) :=
    congrArg declarationHeader
      (map_symbol_artifacts
        (h.imp fun mesh outcome hmesh artifact hok => (hmesh artifact hok).symbol))
  have hdeclared : declarations (declarationHeader (manifest.succeeded outcomes)) =
      (manifest.succeeded outcomes).flatMap Declaration.ofSymbol := by
    apply Declaration.declarations_declarationHeader
    intro symbol hmem
    obtain ⟨mesh, hmesh, rfl⟩ := List.mem_map.mp ((succeeded_sublist hlength).subset hmem)
    exact hidentifiers mesh hmesh
  rw [htext]
  refine ⟨hlength, rfl, hdeclared, hascending, ?distinct, ?count, ?failed, ?defined⟩
  case distinct =>
    rw [hdeclared]
    exact Declaration.nodup_names_flatMap (hnodup.sublist (succeeded_sublist hlength))
  case count =>
    rw [hdeclared, List.length_flatMap, ← length_succeeded hlength]
    simp [Declaration.ofSymbol, Nat.mul_comm]
  case failed =>
    intro mesh failure hmem declaration hin hname
    rw [hdeclared] at hname
    exact not_mem_succeeded hnodup hlength hmem (Declaration.mem_of_name_mem_flatMap hin hname)
  case defined =>
    intro mesh artifact hmem
    exact definesSymbol_of_delivers (hidentifiers mesh (List.of_mem_zip hmem).1)
      ((List.forall₂_zip h hmem) artifact rfl)

/-- A manifest that is loaded and accepted, with a header, into a directory that can be made, in any
order of its meshes, of which any may fail: if the build does not fail for its header, the header is
there and declares an array and a count for each mesh that has success, as they are defined in its
file, and nothing else. -/
theorem buildInOrder_headerAgrees (instead : Option Path) {header : Path}
    (hload : Manifest.load fs path = .ok manifest) (hvalid : manifest.validate fs = .ok ())
    (hheader : manifest.header = some header)
    (hmade : fs.makeDirectories (manifest.outputDirectory instead) = (.ok (), base))
    (horder : order.Perm (List.range manifest.meshes.length))
    (hwritten : ∀ failure, (manifest.buildInOrder fs instead order).1 ≠ .error (.header failure)) :
    let directory := manifest.outputDirectory instead
    let last := (manifest.buildInOrder fs instead order).2
    (∃ text, last.read (directory.join header) = .ok text.toUTF8 ∧
      manifest.HeaderAgrees base last directory order
        (manifest.convertInOrder base directory order).1 text) ∧
      manifest.buildInOrder fs instead (List.range manifest.meshes.length) =
        manifest.build fs instead := by
  intro directory last
  refine ⟨?_, manifest.buildInOrder_range fs instead⟩
  have hidentifiers := fun mesh hmem => (buildable_of_validate hvalid mesh hmem).name
  have hnames := ascending_of_load hload
  have hbuild := buildInOrder_of_makeDirectories order hmade
  rw [hbuild] at hwritten
  have hlast := writeHeader_of_conclude hwritten
  rw [← hbuild] at hlast
  refine ⟨_, ?_, headerAgrees_of_delivers hnames hidentifiers ?_⟩
  · obtain ⟨_, _, hplaces, _⟩ := exists_changes_of_writeHeader hlast
    obtain ⟨_, _, hlocate⟩ := hplaces header hheader
    exact read_of_locate hlocate
  · have hpairs : (manifest.jobsInOrder directory order).Pairwise fun a b =>
        a.destination base ≠ b.destination base :=
      pairwise_destination_ne hnames hidentifiers horder
    refine ((List.forall₂_and_left _ _).mpr
      ⟨hidentifiers, forall₂_turns horder base directory⟩).imp ?_
    rintro mesh outcome ⟨hname, done, todo, hsplit, hturn⟩ artifact rfl
    exact delivers_of_turn hname hpairs hsplit hturn.symm hlast

/-- A manifest whose names look like names of generated code; the second of its meshes fails. -/
def lookalikes : FileSystem :=
  ⟨[(["m.toml"],
      .file ("[output]\nheader = \"all.h\"\n[meshes]\na = \"a.obj\"\na_surfaces = \"b.obj\"\n" ++
        "a_surfaces_count = \"a.obj\"\n").toUTF8),
    (["a.obj"], .file "v 0 0 0\nv 1 0 0\nv 0 1 0\nf 1 2 3\n".toUTF8),
    (["b.obj"], .file "v 0 0 0\nf 1 2 3\n".toUTF8)], []⟩

def lookalikesManifest : Manifest :=
  ⟨⟨""⟩, ⟨"collision/"⟩, some ⟨"all.h"⟩, Options.default,
    [("a", ⟨⟨"a.obj"⟩, {}⟩), ("a_surfaces", ⟨⟨"b.obj"⟩, {}⟩),
      ("a_surfaces_count", ⟨⟨"a.obj"⟩, {}⟩)]⟩

theorem buildInOrder_headerAgrees_lookalikes :
    let manifest := lookalikesManifest
    let built := manifest.buildInOrder lookalikes none [2, 0, 1]
    Manifest.load lookalikes ⟨"m.toml"⟩ = .ok manifest ∧ manifest.validate lookalikes = .ok () ∧
      built.1 = .error (.failedMeshes 3 [("a_surfaces", .vertexOutOfRange ⟨"b.obj"⟩ 2 2 1)]) ∧
      ∃ text, built.2.read ⟨"collision/all.h"⟩ = .ok text.toUTF8 ∧
        ((declarations text).map Declaration.name).Nodup ∧
        declarations text = [.array "a_surfaces", .count "a_surfaces_count",
          .array "a_surfaces_count_surfaces", .count "a_surfaces_count_surfaces_count"] := by
  intro manifest built
  have hload : Manifest.load lookalikes ⟨"m.toml"⟩ = .ok manifest := by decide +kernel
  have hvalid : manifest.validate lookalikes = .ok () := by decide +kernel
  have hbuilt : built.1 =
      .error (.failedMeshes 3 [("a_surfaces", .vertexOutOfRange ⟨"b.obj"⟩ 2 2 1)]) := by
    decide +kernel
  let base := (lookalikes.makeDirectories (manifest.outputDirectory none)).2
  have hmade : lookalikes.makeDirectories (manifest.outputDirectory none) = (.ok (), base) :=
    Prod.ext (by decide +kernel) rfl
  have hpath : (manifest.outputDirectory none).join ⟨"all.h"⟩ = ⟨"collision/all.h"⟩ := by
    decide +kernel
  have hsucceeded : manifest.succeeded
      (manifest.convertInOrder base (manifest.outputDirectory none) [2, 0, 1]).1 =
        ["a", "a_surfaces_count"] := by
    decide +kernel
  have horder : [2, 0, 1].Perm (List.range manifest.meshes.length) := by decide
  have hwritten : ∀ failure, built.1 ≠ .error (.header failure) := by
    rw [hbuilt]
    nofun
  obtain ⟨⟨text, hread, hagrees⟩, _⟩ :=
    buildInOrder_headerAgrees none hload hvalid rfl hmade horder hwritten
  have hdeclared := hagrees.declared
  rw [hsucceeded] at hdeclared
  rw [hpath] at hread
  exact ⟨hload, hvalid, hbuilt, text, hread, hagrees.distinct, hdeclared⟩

end Agreement

end Manifest

end CollisionMesh
