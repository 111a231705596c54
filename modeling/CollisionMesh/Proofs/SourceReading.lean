import Mathlib.Data.List.Basic
import CollisionMesh.Number.Literal
import CollisionMesh.Proofs.Identifiers
import CollisionMesh.Proofs.SourceLines

/-!
# Reading generated text

A reader of generated files. Each line says one thing, told by how it starts; the array is put
together from what the lines say, and is taken only if it has this very text. Every array whose
names are identifiers, and whose other names have no line feed, is read back.
-/

namespace CollisionMesh

set_option autoImplicit false

/-- A character of a name or of a whole number. -/
def isTokenChar (c : Char) : Bool := Identifier.isNameChar c || c == '-'

/-- The names and the numbers in a text, in order. -/
def tokens (cs : List Char) : List (List Char) :=
  (cs.splitOnP fun c => !isTokenChar c).filter fun run => !run.isEmpty

def after? (lead : String) (cs : List Char) : Option (List Char) := cs.dropPrefix? lead.toList

def Corners.ofComponents? : List Int → Option (Corners Int)
  | [x, y, z, x', y', z', x'', y'', z''] => some ⟨⟨x, y, z⟩, ⟨x', y', z'⟩, ⟨x'', y'', z''⟩⟩
  | _ => none

def SurfaceRecord.ofTokens? : List (List Char) → Option SurfaceRecord
  | surface :: force :: terrain :: rest => do
    let force ← readInt? force
    let components ← rest.mapM readInt?
    let corners ← Corners.ofComponents? components
    return ⟨String.ofList surface, force, String.ofList terrain, corners⟩
  | _ => none

/-- Whether the surface and the terrain of a record are identifiers. -/
def SurfaceRecord.Named (record : SurfaceRecord) : Prop :=
  Identifier.isIdentifier record.surface = true ∧ Identifier.isIdentifier record.terrain = true

instance (record : SurfaceRecord) : Decidable record.Named := inferInstanceAs (Decidable (_ ∧ _))

/-- What a line of a generated file says. -/
inductive SourceItem where
  | sourceName (name : String)
  | recordCount (count : Nat)
  | header (name : String)
  | array (name : String)
  /-- An initializer, and whether a comma follows it. -/
  | initializer (record : SurfaceRecord) (comma : Bool)
  /-- The name of the constant, and the arrays whose size is divided and by the size of
  whose first element. -/
  | elementCount (name divided element : String)
  deriving DecidableEq, Repr

namespace SourceItem

def ofLine? (line : String) : Option SourceItem :=
  let cs := line.toList
  ((after? "// Source: " cs).map fun name => .sourceName (String.ofList name)) <|>
  ((after? "// Surfaces: " cs).map fun digits => .recordCount (digitsValue digits)) <|>
  ((after? "#include \"" cs).map fun name => .header (String.ofList name.dropLast)) <|>
  ((after? "const struct SM64Surface " cs).bind fun rest =>
    match tokens rest with
    | [name] => some (.array (String.ofList name))
    | _ => none) <|>
  ((after? "    " cs).bind fun rest =>
    (SurfaceRecord.ofTokens? (tokens rest)).map fun record =>
      .initializer record (rest.getLast? == some ',')) <|>
  ((after? "const size_t " cs).bind fun rest =>
    match tokens rest with
    | [name, _, divided, _, element, _] =>
      some (.elementCount (String.ofList name) (String.ofList divided) (String.ofList element))
    | _ => none)

def sourceName? : SourceItem → Option String
  | sourceName name => some name
  | _ => none

def recordCount? : SourceItem → Option Nat
  | recordCount count => some count
  | _ => none

def header? : SourceItem → Option String
  | header name => some name
  | _ => none

def array? : SourceItem → Option String
  | array name => some name
  | _ => none

def initializer? : SourceItem → Option (SurfaceRecord × Bool)
  | initializer record comma => some (record, comma)
  | _ => none

def elementCount? : SourceItem → Option (String × String × String)
  | elementCount name divided element => some (name, divided, element)
  | _ => none

end SourceItem

def sourceItems (text : String) : List SourceItem := (textLines text).filterMap SourceItem.ofLine?

namespace SurfaceArray

/-- The array whose generated text this is. -/
def ofSource? (text : String) : Option SurfaceArray := do
  let items := sourceItems text
  let name ← (items.filterMap SourceItem.array?).head?
  let symbol ← name.toList.dropSuffix? "_surfaces".toList
  let array : SurfaceArray :=
    { symbol := String.ofList symbol
      sourceName := (items.filterMap SourceItem.sourceName?).head?
      includes := items.filterMap SourceItem.header?
      records := (items.filterMap SourceItem.initializer?).map Prod.fst }
  if array.source = text then some array else none

/-- An array whose names are identifiers where a reader has to tell them from marks, and
single lines elsewhere. -/
structure Readable (array : SurfaceArray) : Prop where
  symbol : Identifier.isIdentifier array.symbol = true
  sourceName : ∀ name ∈ array.sourceName, '\n' ∉ name.toList
  includes : ∀ header ∈ array.includes, '\n' ∉ header.toList
  records : ∀ record ∈ array.records, record.Named

/-- What the lines of initializers say: all but the last have a comma. -/
def recordItems : List SurfaceRecord → List SourceItem
  | [] => []
  | [record] => [.initializer record false]
  | record :: rest => .initializer record true :: recordItems rest

/-- What the lines of the generated file of an array say. -/
def items (array : SurfaceArray) : List SourceItem :=
  let name := Identifier.arrayName array.symbol
  (array.sourceName.map .sourceName).toList ++ [.recordCount array.records.length] ++
    array.includes.map .header ++ [.array name] ++ recordItems array.records ++
    [.elementCount (Identifier.countName array.symbol) name name]

end SurfaceArray

section Tokens

def IsToken (cs : List Char) : Prop := cs ≠ [] ∧ ∀ c ∈ cs, isTokenChar c = true

/-- A mark ends what is before it, so texts on its two sides are read apart. -/
theorem tokens_append_cons {c : Char} (h : isTokenChar c = false) (before cs : List Char) :
    tokens (before ++ c :: cs) = tokens before ++ tokens cs := by
  rw [tokens, List.splitOnP_append_cons _ _ (by simp [h]), List.filter_append]
  rfl

theorem tokens_cons_of_mark {c : Char} (h : isTokenChar c = false) (cs : List Char) :
    tokens (c :: cs) = tokens cs :=
  tokens_append_cons h [] cs

theorem tokens_append {token : List Char} (htoken : IsToken token) {c : Char}
    (h : isTokenChar c = false) (cs : List Char) :
    tokens (token ++ c :: cs) = token :: tokens cs := by
  have hfull : (!token.isEmpty) = true := by simpa using htoken.1
  have hchars : ∀ d ∈ token, (!isTokenChar d) = false := fun d hd => by simp [htoken.2 d hd]
  have hself : tokens token = [token] := by
    rw [tokens, List.splitOnP_eq_singleton hchars, List.filter_cons, if_pos hfull, List.filter_nil]
  rw [tokens_append_cons h, hself, List.singleton_append]

theorem isToken_of_isIdentifier {text : String} (h : Identifier.isIdentifier text = true) :
    IsToken text.toList := by
  obtain ⟨hne, hchars, _⟩ := (Identifier.isIdentifier_iff text).mp h
  exact ⟨hne, fun c hc => by simp [isTokenChar, hchars c hc]⟩

end Tokens

section Numbers

theorem digitsValue_toDigits (n : Nat) : digitsValue (Nat.toDigits 10 n) = n :=
  Nat.ofDigitChars_toDigits (by decide) (by decide)

theorem isDigitRun_toDigits (n : Nat) : isDigitRun (Nat.toDigits 10 n) = true := by
  rw [isDigitRun, Bool.and_eq_true, List.all_eq_true]
  exact ⟨by simp, fun c => Nat.isDigit_of_mem_toDigits (by decide) (by decide)⟩

theorem splitSign_of_digit {c : Char} (h : c.isDigit = true) (cs : List Char) :
    splitSign (c :: cs) = (false, c :: cs) := by
  unfold splitSign
  split
  · rename_i heq
    cases heq
    exact absurd h (by decide)
  · rename_i heq
    cases heq
    exact absurd h (by decide)
  · rfl

theorem splitSign_of_isDigitRun {cs : List Char} (h : isDigitRun cs = true) :
    splitSign cs = (false, cs) := by
  cases cs with
  | nil => rfl
  | cons c cs => exact splitSign_of_digit (isDigit_of_isDigitRun h List.mem_cons_self) cs

theorem toList_repr_ofNat (n : Nat) : (Int.ofNat n).repr.toList = Nat.toDigits 10 n :=
  Nat.toList_repr

theorem toList_repr_negSucc (n : Nat) :
    (Int.negSucc n).repr.toList = '-' :: Nat.toDigits 10 (n + 1) := by
  change ("-" ++ (n + 1).repr).toList = _
  rw [String.toList_append, Nat.toList_repr]
  rfl

theorem readInt?_repr (n : Int) : readInt? n.repr.toList = some n := by
  cases n with
  | ofNat m =>
    rw [toList_repr_ofNat, readInt?, splitSign_of_isDigitRun (isDigitRun_toDigits m)]
    simp [isDigitRun_toDigits, digitsValue_toDigits]
  | negSucc m =>
    rw [toList_repr_negSucc, readInt?, splitSign]
    simp only [isDigitRun_toDigits, digitsValue_toDigits, if_true]
    rfl

theorem isToken_repr (n : Int) : IsToken n.repr.toList := by
  have hdigits : ∀ m : Nat, ∀ c ∈ Nat.toDigits 10 m, isTokenChar c = true := by
    intro m c hc
    have hdigit := isDigit_of_isDigitRun (isDigitRun_toDigits m) hc
    simp [isTokenChar, Identifier.isNameChar, Char.isAlphanum, hdigit]
  cases n with
  | ofNat m =>
    rw [toList_repr_ofNat]
    exact ⟨by simp, hdigits m⟩
  | negSucc m =>
    rw [toList_repr_negSucc]
    refine ⟨by simp, fun c hc => ?_⟩
    rcases List.mem_cons.mp hc with rfl | hc
    · decide
    · exact hdigits (m + 1) c hc

end Numbers

section Marks

theorem not_isTokenChar_mark :
    isTokenChar ',' = false ∧ isTokenChar '\x7b' = false ∧ isTokenChar '\x7d' = false ∧
      isTokenChar '[' = false ∧ isTokenChar '(' = false ∧ isTokenChar ')' = false ∧
      isTokenChar ' ' = false := by
  decide

theorem tokens_initializer (p : Point Int) (cs : List Char) :
    tokens (p.initializer.toList ++ cs) =
      p.x.repr.toList :: p.y.repr.toList :: p.z.repr.toList :: tokens cs := by
  simp [Point.initializer, braced, tokens_append (isToken_repr _), tokens_cons_of_mark,
    not_isTokenChar_mark]

/-- The tokens of an initializer: two names with a number between them, then the nine components. -/
theorem tokens_text {record : SurfaceRecord} (h : record.Named) (cs : List Char) :
    tokens (record.text.toList ++ cs) =
      record.surface.toList :: record.force.repr.toList :: record.terrain.toList ::
        (record.corners.components.map fun n => n.repr.toList) ++ tokens cs := by
  simp [SurfaceRecord.text, braced, tokens_append (isToken_repr _), tokens_cons_of_mark,
    not_isTokenChar_mark, tokens_initializer, tokens_append (isToken_of_isIdentifier h.1),
    tokens_append (isToken_of_isIdentifier h.2)]
  rfl

end Marks

theorem Corners.ofComponents?_components (t : Corners Int) :
    ofComponents? t.components = some t := by
  rfl

theorem SurfaceRecord.ofTokens?_text {record : SurfaceRecord} (hnamed : record.Named)
    (cs : List Char) (h : tokens cs = []) :
    ofTokens? (tokens (record.text.toList ++ cs)) = some record := by
  have hcomponents : ∀ components : List Int,
      (components.map fun n => n.repr.toList).mapM readInt? = some components := by
    intro components
    induction components with
    | nil => rfl
    | cons n components ih => simp [readInt?_repr, ih]
  rw [tokens_text hnamed, h, List.append_nil, ofTokens?, readInt?_repr, hcomponents]
  simp [Corners.ofComponents?_components]

namespace SourceItem

theorem ofLine?_sourceName (name : String) :
    ofLine? ("// Source: " ++ name) = some (.sourceName name) := by
  simp [ofLine?, after?, List.dropPrefix?]

theorem ofLine?_recordCount (count : Nat) :
    ofLine? ("// Surfaces: " ++ count.repr) = some (.recordCount count) := by
  simp [ofLine?, after?, List.dropPrefix?, digitsValue_toDigits]

theorem ofLine?_header (name : String) :
    ofLine? ("#include \"" ++ name ++ "\"") = some (.header name) := by
  simp [ofLine?, after?, List.dropPrefix?]

theorem ofLine?_array {symbol : String} (h : Identifier.isIdentifier symbol = true) :
    ofLine? ("const struct SM64Surface " ++ Identifier.arrayName symbol ++ "[] = \x7b") =
      some (.array (Identifier.arrayName symbol)) := by
  have htokens : tokens ((Identifier.arrayName symbol).toList ++ "[] = \x7b".toList) =
      [(Identifier.arrayName symbol).toList] := by
    have htoken := isToken_of_isIdentifier (Identifier.isIdentifier_arrayName h)
    exact tokens_append htoken not_isTokenChar_mark.2.2.2.1 "] = \x7b".toList
  simp only [ofLine?, String.toList_append, List.append_assoc]
  generalize (Identifier.arrayName symbol).toList ++ "[] = \x7b".toList = rest at htokens
  simp [after?, List.dropPrefix?, htokens]

theorem getLast?_text (record : SurfaceRecord) : record.text.toList.getLast? = some '\x7d' := by
  rw [SurfaceRecord.text, braced, String.toList_append]
  exact List.getLast?_concat

theorem ofLine?_initializer {record : SurfaceRecord} (h : record.Named) :
    ofLine? ("    " ++ record.text) = some (.initializer record false) := by
  have htokens := SurfaceRecord.ofTokens?_text h [] rfl
  rw [List.append_nil] at htokens
  simp [ofLine?, after?, List.dropPrefix?, htokens, getLast?_text]

theorem ofLine?_initializer_comma {record : SurfaceRecord} (h : record.Named) :
    ofLine? ("    " ++ record.text ++ ",") = some (.initializer record true) := by
  have htokens := SurfaceRecord.ofTokens?_text h [','] rfl
  simp [ofLine?, after?, List.dropPrefix?, htokens]

theorem ofLine?_elementCount {array : SurfaceArray}
    (h : Identifier.isIdentifier array.symbol = true) :
    ofLine? array.countLine =
      some (.elementCount (Identifier.countName array.symbol) (Identifier.arrayName array.symbol)
        (Identifier.arrayName array.symbol)) := by
  have hname := isToken_of_isIdentifier (Identifier.isIdentifier_arrayName h)
  have hcount := isToken_of_isIdentifier (Identifier.isIdentifier_countName h)
  obtain ⟨_, _, _, hbracket, hopen, hclose, hblank⟩ := not_isTokenChar_mark
  unfold SurfaceArray.countLine
  generalize Identifier.arrayName array.symbol = name at hname ⊢
  generalize Identifier.countName array.symbol = count at hcount ⊢
  have htokens : tokens (count.toList ++ ' ' :: ("= sizeof".toList ++ '(' :: (name.toList ++ ')' ::
      (" / sizeof".toList ++ '(' :: (name.toList ++ '[' :: "0]);".toList))))) =
      [count.toList, "sizeof".toList, name.toList, "sizeof".toList, name.toList, "0".toList] := by
    rw [tokens_append hcount hblank, tokens_append_cons hopen, tokens_append hname hclose,
      tokens_append_cons hopen, tokens_append hname hbracket]
    rfl
  have hline : ("const size_t " ++ count ++ " = sizeof(" ++ name ++ ") / sizeof(" ++ name ++
      "[0]);").toList = "const size_t ".toList ++
        (count.toList ++ ' ' :: ("= sizeof".toList ++ '(' ::
        (name.toList ++ ')' ::
          (" / sizeof".toList ++ '(' :: (name.toList ++ '[' :: "0]);".toList))))) := by
    simp
  simp only [ofLine?, hline]
  generalize (count.toList ++ ' ' :: _) = rest at htokens ⊢
  simp [after?, List.dropPrefix?, htokens]

theorem ofLine?_plain :
    ofLine? generatedBanner = none ∧ ofLine? "" = none ∧ ofLine? "\x7d;" = none := by
  decide

end SourceItem

/-- Lines without line feeds are found again, and after the last of them nothing. -/
theorem textLines_unlines {lines : List String} (h : ∀ line ∈ lines, '\n' ∉ line.toList) :
    textLines (unlines lines) = lines ++ [""] := by
  induction lines with
  | nil => rfl
  | cons line lines ih =>
    rw [textLines_unlines_cons (h line List.mem_cons_self),
      ih fun other hother => h other (List.mem_cons_of_mem _ hother)]
    rfl

theorem IsToken.lineFeed_not_mem {cs : List Char} (h : IsToken cs) : '\n' ∉ cs :=
  fun hmem => absurd (h.2 _ hmem) (by decide)

namespace SurfaceArray

variable {array : SurfaceArray}

theorem items_recordLines {records : List SurfaceRecord} (h : ∀ record ∈ records, record.Named) :
    (recordLines records).filterMap SourceItem.ofLine? = recordItems records := by
  -- along the lines: only the last record has no comma
  fun_induction recordLines records with
  | case1 => rfl
  | case2 record =>
    rw [List.filterMap_cons_some (SourceItem.ofLine?_initializer (h record List.mem_cons_self))]
    rfl
  | case3 record rest hne ih =>
    rw [List.filterMap_cons_some
      (SourceItem.ofLine?_initializer_comma (h record List.mem_cons_self)),
      ih fun other hother => h other (List.mem_cons_of_mem _ hother), recordItems]
    exact hne

theorem items_lines (h : array.Readable) :
    (array.lines ++ [""]).filterMap SourceItem.ofLine? = array.items := by
  obtain ⟨hbanner, hempty, hbrace⟩ := SourceItem.ofLine?_plain
  have hsource : (array.sourceName.map fun name => "// Source: " ++ name).toList.filterMap
      SourceItem.ofLine? = (array.sourceName.map SourceItem.sourceName).toList := by
    cases array.sourceName with
    | none => rfl
    | some name => simp [SourceItem.ofLine?_sourceName]
  have hheaders : array.includeLines.filterMap SourceItem.ofLine? = array.includes.map .header := by
    unfold includeLines
    cases array.includes with
    | nil => rfl
    | cons header headers => simp [SourceItem.ofLine?_header, hempty, List.filterMap_map]
  have hdefinition := SourceItem.ofLine?_array h.symbol
  have hcount := SourceItem.ofLine?_elementCount h.symbol
  have hrecords := items_recordLines h.records
  simp only [lines, bannerLines, definitionLines, List.filterMap_append, List.filterMap_cons,
    List.filterMap_nil, hbanner, hsource, SourceItem.ofLine?_recordCount, hempty, hheaders,
    hdefinition, hrecords, hbrace, hcount, items, List.append_assoc, List.nil_append,
    List.append_nil]

theorem lineFeed_not_mem_text {record : SurfaceRecord} (h : record.Named) :
    '\n' ∉ record.text.toList := by
  have hnumber : ∀ n : Int, '\n' ∉ n.repr.toList := fun n => (isToken_repr n).lineFeed_not_mem
  have hsurface := (isToken_of_isIdentifier h.1).lineFeed_not_mem
  have hterrain := (isToken_of_isIdentifier h.2).lineFeed_not_mem
  simp [SurfaceRecord.text, Point.initializer, braced, hnumber, hsurface, hterrain]

theorem lineFeed_not_mem_recordLines {records : List SurfaceRecord}
    (h : ∀ record ∈ records, record.Named) : ∀ line ∈ recordLines records, '\n' ∉ line.toList := by
  fun_induction recordLines records with
  | case1 => simp
  | case2 record => simpa using lineFeed_not_mem_text (h record List.mem_cons_self)
  | case3 record rest hne ih =>
    have htext := lineFeed_not_mem_text (h record List.mem_cons_self)
    have hrest := ih fun other hother => h other (List.mem_cons_of_mem _ hother)
    simpa [htext] using hrest

theorem lineFeed_not_mem_definition {symbol : String} (h : Identifier.isIdentifier symbol = true) :
    '\n' ∉ ("const struct SM64Surface " ++ Identifier.arrayName symbol ++ "[] = \x7b").toList := by
  have hname := (isToken_of_isIdentifier (Identifier.isIdentifier_arrayName h)).lineFeed_not_mem
  simpa using hname

theorem lineFeed_not_mem_countLine (h : Identifier.isIdentifier array.symbol = true) :
    '\n' ∉ array.countLine.toList := by
  have hname := (isToken_of_isIdentifier (Identifier.isIdentifier_arrayName h)).lineFeed_not_mem
  have hcount := (isToken_of_isIdentifier (Identifier.isIdentifier_countName h)).lineFeed_not_mem
  unfold countLine
  generalize Identifier.arrayName array.symbol = name at hname ⊢
  generalize Identifier.countName array.symbol = count at hcount ⊢
  simp [hcount, hname]

/-- Whatever else the file shows, it defines the array and the count of its symbol. -/
theorem defines_source {name : String} (hsymbol : array.symbol = name)
    (h : Identifier.isIdentifier name = true) :
    "const struct SM64Surface " ++ Identifier.arrayName name ++ "[] = \x7b" ∈
      textLines array.source ∧
      "const size_t " ++ Identifier.countName name ++ " = sizeof(" ++ Identifier.arrayName name ++
        ") / sizeof(" ++ Identifier.arrayName name ++ "[0]);" ∈ textLines array.source := by
  subst hsymbol
  have hcount : array.countLine ∈ textLines array.source :=
    mem_textLines_unlines (by simp [lines]) (lineFeed_not_mem_countLine h)
  have hdefinition := lineFeed_not_mem_definition h
  exact ⟨mem_textLines_unlines (by simp [lines, definitionLines]) hdefinition, hcount⟩

theorem lineFeed_not_mem_lines (h : array.Readable) : ∀ line ∈ array.lines, '\n' ∉ line.toList := by
  have hrecords := lineFeed_not_mem_recordLines h.records
  have hdigits : '\n' ∉ Nat.toDigits 10 array.records.length :=
    fun hmem => absurd (isDigit_of_isDigitRun (isDigitRun_toDigits _) hmem) (by decide)
  have hsource : ∀ line ∈ (array.sourceName.map fun name => "// Source: " ++ name).toList,
      '\n' ∉ line.toList := by
    intro line hline
    obtain ⟨name, hmem, rfl⟩ := Option.map_eq_some_iff.mp (Option.mem_toList.mp hline)
    simpa using h.sourceName name hmem
  have hheaders : ∀ line ∈ array.includeLines, '\n' ∉ line.toList := by
    unfold includeLines
    intro line hline
    split at hline
    · cases hline
    · rcases List.mem_append.mp hline with hline | hline
      · obtain ⟨header, hmem, rfl⟩ := List.mem_map.mp hline
        simpa using h.includes header hmem
      · rw [List.mem_singleton.mp hline]
        decide
  have hbanner : ∀ line ∈ array.bannerLines, '\n' ∉ line.toList := by
    simp only [bannerLines, List.forall_mem_append]
    refine ⟨⟨by simp [generatedBanner], hsource⟩, ?_⟩
    simpa using hdigits
  have hdefinition : ∀ line ∈ array.definitionLines, '\n' ∉ line.toList := by
    simp only [definitionLines, List.forall_mem_append, List.forall_mem_singleton]
    exact ⟨⟨lineFeed_not_mem_definition h.symbol, hrecords⟩, by simp⟩
  simp only [lines, List.forall_mem_append, List.forall_mem_singleton]
  exact ⟨⟨⟨hbanner, hheaders⟩, hdefinition⟩, lineFeed_not_mem_countLine h.symbol⟩

theorem sourceItems_source (h : array.Readable) : sourceItems array.source = array.items := by
  rw [sourceItems, source, textLines_unlines (lineFeed_not_mem_lines h), items_lines h]

/-- What is asked of items that are no initializers has nothing to do with the records. -/
theorem filterMap_recordItems {α : Type} {ask : SourceItem → Option α}
    (h : ∀ record comma, ask (.initializer record comma) = none) (records : List SurfaceRecord) :
    (recordItems records).filterMap ask = [] := by
  fun_induction recordItems records <;> simp_all

theorem initializers_recordItems (records : List SurfaceRecord) :
    (recordItems records).filterMap SourceItem.initializer? =
      records.mapIdx fun i record => (record, decide (i + 1 ≠ records.length)) := by
  fun_induction recordItems records with
  | case1 => rfl
  | case2 record => simp [SourceItem.initializer?]
  | case3 record rest hne ih =>
    have hlength : 0 ≠ rest.length := fun h => hne (List.length_eq_zero_iff.mp h.symm)
    simp [SourceItem.initializer?, ih, hlength]

/-- What is asked of an array's items is asked of each part of its text in turn. -/
theorem filterMap_sourceItems {α : Type} (h : array.Readable) (ask : SourceItem → Option α) :
    (sourceItems array.source).filterMap ask =
      (array.sourceName.bind fun name => ask (.sourceName name)).toList ++
        (ask (.recordCount array.records.length)).toList ++
        array.includes.filterMap (fun header => ask (.header header)) ++
        (ask (.array (Identifier.arrayName array.symbol))).toList ++
        (recordItems array.records).filterMap ask ++
        (ask (.elementCount (Identifier.countName array.symbol) (Identifier.arrayName array.symbol)
          (Identifier.arrayName array.symbol))).toList := by
  have hsingle : ∀ item, [item].filterMap ask = (ask item).toList := by
    intro item
    cases hitem : ask item <;> simp [hitem]
  have hsource : (array.sourceName.map SourceItem.sourceName).toList.filterMap ask =
      (array.sourceName.bind fun name => ask (.sourceName name)).toList := by
    cases array.sourceName with
    | none => rfl
    | some name => exact hsingle _
  rw [sourceItems_source h, items]
  simp only [List.filterMap_append, hsingle, hsource, List.filterMap_map, Function.comp_def]

theorem arrays_source (h : array.Readable) :
    (sourceItems array.source).filterMap SourceItem.array? =
      [Identifier.arrayName array.symbol] := by
  rw [filterMap_sourceItems h, filterMap_recordItems fun _ _ => rfl]
  simp [SourceItem.array?]

theorem sourceNames_source (h : array.Readable) :
    (sourceItems array.source).filterMap SourceItem.sourceName? = array.sourceName.toList := by
  rw [filterMap_sourceItems h, filterMap_recordItems fun _ _ => rfl]
  simp [SourceItem.sourceName?]

theorem headers_source (h : array.Readable) :
    (sourceItems array.source).filterMap SourceItem.header? = array.includes := by
  rw [filterMap_sourceItems h, filterMap_recordItems fun _ _ => rfl]
  simp [SourceItem.header?]

theorem recordCounts_source (h : array.Readable) :
    (sourceItems array.source).filterMap SourceItem.recordCount? = [array.records.length] := by
  rw [filterMap_sourceItems h, filterMap_recordItems fun _ _ => rfl]
  simp [SourceItem.recordCount?]

theorem initializers_source (h : array.Readable) :
    (sourceItems array.source).filterMap SourceItem.initializer? =
      array.records.mapIdx fun i record => (record, decide (i + 1 ≠ array.records.length)) := by
  rw [filterMap_sourceItems h]
  simp [SourceItem.initializer?, initializers_recordItems]

theorem elementCounts_source (h : array.Readable) :
    (sourceItems array.source).filterMap SourceItem.elementCount? =
      [(Identifier.countName array.symbol, Identifier.arrayName array.symbol,
        Identifier.arrayName array.symbol)] := by
  rw [filterMap_sourceItems h, filterMap_recordItems fun _ _ => rfl]
  simp [SourceItem.elementCount?]

theorem map_fst_mapIdx (records : List SurfaceRecord) (comma : Nat → Bool) :
    (records.mapIdx fun i record => (record, comma i)).map Prod.fst = records := by
  apply List.ext_getElem <;> simp

theorem ofSource?_of_readable (h : array.Readable) : ofSource? array.source = some array := by
  have hsymbol : (Identifier.arrayName array.symbol).toList.dropSuffix? "_surfaces".toList =
      some array.symbol.toList := by
    rw [List.dropSuffix?_eq_some_iff]
    exact ⟨"_surfaces".toList, String.toList_append, by simp⟩
  rw [ofSource?, arrays_source h, sourceNames_source h, headers_source h, initializers_source h]
  simp only [List.head?_cons, Option.bind_eq_bind, Option.bind_some, hsymbol, map_fst_mapIdx,
    Option.head?_toList, String.ofList_toList, if_true]

theorem source_of_ofSource? {text : String} (h : ofSource? text = some array) :
    array.source = text := by
  unfold ofSource? at h
  simp only [Option.bind_eq_bind, Option.bind_eq_some_iff] at h
  obtain ⟨_, _, _, _, h⟩ := h
  split at h
  · rename_i htext
    rwa [← Option.some.inj h]
  · cases h

/-- Reading takes the text of an array to the array, and no other text. So no other array has this
text. In it the stated number is that of initializers, all initializers but the last have a comma,
and the array whose elements are counted is the one that is defined. -/
theorem ofSource?_eq_some_iff (array : SurfaceArray) (h : array.Readable) :
    (∀ text, ofSource? text = some array ↔ text = array.source) ∧
    (∀ other : SurfaceArray, other.Readable → other.source = array.source → other = array) ∧
    (let items := sourceItems array.source
     let initializers := items.filterMap SourceItem.initializer?
     items.filterMap SourceItem.recordCount? = [initializers.length] ∧
     initializers.map Prod.fst = array.records ∧
     (∀ (i : Nat) (hi : i < initializers.length),
       initializers[i].2 = true ↔ i + 1 ≠ initializers.length) ∧
     ∃ name, items.filterMap SourceItem.array? = [name] ∧
       items.filterMap SourceItem.elementCount? =
         [(Identifier.countName array.symbol, name, name)]) := by
  refine ⟨fun text => ⟨fun htext => (source_of_ofSource? htext).symm, ?_⟩, ?_, ?_⟩
  · rintro rfl
    exact ofSource?_of_readable h
  · intro other hother hsource
    have hread := ofSource?_of_readable hother
    rw [hsource, ofSource?_of_readable h] at hread
    exact (Option.some.inj hread).symm
  · simp only [recordCounts_source h, initializers_source h, arrays_source h,
      elementCounts_source h, List.length_mapIdx, map_fst_mapIdx, true_and]
    exact ⟨by simp, _, rfl, rfl⟩

/-- Two surfaces, a header, and names that look like other lines of a generated file. -/
theorem ofSource?_eq_some_iff_two :
    let array : SurfaceArray :=
      ⟨"hill", some "// Surfaces: 7", ["level.h", "\"\x7d;"],
        [⟨"SURFACE_ICE", 0, "TERRAIN_SNOW", ⟨⟨-1, 0, 1⟩, ⟨32767, -32767, 0⟩, ⟨0, 0, 12⟩⟩⟩,
          ⟨"_", -2147483648, "x", ⟨⟨0, 0, 0⟩, ⟨0, 0, 0⟩, ⟨0, 0, 0⟩⟩⟩]⟩
    array.Readable ∧ ofSource? array.source = some array := by
  intro array
  have h : array.Readable := ⟨by decide, by decide, by decide, by decide⟩
  exact ⟨h, ((ofSource?_eq_some_iff array h).1 _).mpr rfl⟩

end SurfaceArray

end CollisionMesh
