import CollisionMesh.CommandLine
import CollisionMesh.Proofs.AxisTexts
import CollisionMesh.Proofs.ExactDecimals
import CollisionMesh.Proofs.Traversal

/-!
# Options on the command line

Every field that overrides may have can be given by a setting with its value, whatever the value is,
and every path can be given as a word. So for all overrides there are arguments that ask for them.
-/

namespace CollisionMesh

set_option autoImplicit false

section Texts

def VertexPolicy.name : VertexPolicy → String
  | fail => "fail"
  | skip => "skip"

def MaterialUse.name : MaterialUse → String
  | surface => "surface"
  | terrain => "terrain"
  | ignored => "none"

theorem VertexPolicy.policyNamed?_name (policy : VertexPolicy) :
    Document.policyNamed? policy.name = some policy := by
  cases policy <;> decide

theorem MaterialUse.materialUseNamed?_name (use : MaterialUse) :
    Document.materialUseNamed? use.name = some use := by
  cases use <;> decide

end Texts

namespace CommandLine

namespace Values

/-- The overrides that settings give, each field for itself. -/
def overrides? (values : Values) : Option Overrides := do
  return {
    scale := ← values.read? .scale fun text => Binary64.ofText? text.toList
    axisMap := ← values.read? .axis fun text => (AxisMap.ofText text).toOption
    defaultSurface := ← values.read? .surface some
    defaultTerrain := ← values.read? .terrain some
    malformedVertex := ← values.read? .onMalformedVertex Document.policyNamed?
    materialUse := ← values.read? .tagBinding Document.materialUseNamed?
    materialLead := ← values.read? .tagPrefix some }

theorem options?_eq (values : Values) :
    values.options? = values.overrides?.map fun overrides => overrides.apply Options.default := by
  unfold options? overrides?
  simp only [Option.bind_eq_bind, Option.pure_def, Option.map_bind, Function.comp_def,
    Option.map_some]

end Values

/-- The settings of the command that converts one file. -/
def convertSettings : List Setting := .output :: [.symbol] ++ optionSettings

/-- Arguments that ask for the conversion of a file under some overrides, perhaps with
a symbol or an output. -/
def Asks (arguments : List String) (input : Path) (overrides : Overrides) (symbol : Option String)
    (output : Option Path) : Prop :=
  ∃ values, Command.split? convertSettings arguments = some ([input.text], values) ∧
    input.text ≠ "" ∧
    values.overrides? = some overrides ∧ values.lookup .symbol = symbol ∧
    values.read? .output Values.readPath? = some output

section Asks

variable {arguments : List String} {input : Path} {overrides : Overrides} {symbol : Option String}
  {output : Option Path}

theorem readPath?_of_ne (h : input.text ≠ "") : Values.readPath? input.text = some input := by
  simp [Values.readPath?, h]

theorem read?_some (values : Values) (setting : Setting) :
    values.read? setting some = some (values.lookup setting) := by
  unfold Values.read?
  cases values.lookup setting <;> rfl

theorem ofArguments?_of_asks (h : Asks arguments input overrides symbol output) :
    Command.ofArguments? "convert" arguments =
      some (.convert input output { overrides.apply Options.default with symbol := symbol }) := by
  obtain ⟨values, hsplit, hinput, hoverrides, hsymbol, houtput⟩ := h
  have hsplit' : Command.split? (.output :: [.symbol] ++ optionSettings) arguments =
      some ([input.text], values) :=
    hsplit
  simp only [Command.ofArguments?, Command.ofFile?, hsplit', Command.onlyPath?,
    readPath?_of_ne hinput, houtput, read?_some, hsymbol, Values.options?_eq, hoverrides,
    Option.bind_eq_bind, Option.bind_some, Option.map_some]
  rfl

theorem run_of_asks (h : Asks arguments input overrides symbol output) {options : Options}
    (hoptions : { overrides.apply Options.default with symbol := symbol } = options)
    (fs : FileSystem) :
    let ran := fs.convertTo options input (output.getD (options.outputFor input))
    run fs ("convert" :: arguments) = (.ofArtifact ran.1, ran.2) := by
  intro ran
  subst hoptions
  have hword : Item.isSetting "convert" = false := by decide
  simp only [run, Request.ofArguments?, Request.ofArgumentsFrom?, hword, Bool.false_eq_true,
    if_false, ofArguments?_of_asks h, Option.map_some]
  rfl

end Asks

section Flags

/-- The settings that have been given a value. -/
def chosen (choices : List (Setting × Option String)) : Values :=
  choices.filterMap fun choice => choice.2.map fun value => (choice.1, value)

theorem lookup_chosen {choices : List (Setting × Option String)} (h : (choices.map Prod.fst).Nodup)
    (setting : Setting) : (chosen choices).lookup setting = (choices.lookup setting).join := by
  induction choices with
  | nil => rfl
  | cons choice choices ih =>
    obtain ⟨hfirst, hrest⟩ := List.nodup_cons.mp h
    obtain ⟨other, value?⟩ := choice
    rw [List.lookup_cons]
    cases value? with
    | none =>
      have hchosen : chosen ((other, none) :: choices) = chosen choices := rfl
      rw [hchosen, ih hrest]
      split
      · rename_i heq
        rw [lookup_of_not_mem (beq_iff_eq.mp heq ▸ hfirst)]
        rfl
      · rfl
    | some value =>
      have hchosen : chosen ((other, some value) :: choices) =
          (other, value) :: chosen choices := rfl
      rw [hchosen, List.lookup_cons, ih hrest]
      split <;> rfl

theorem sublist_chosen (choices : List (Setting × Option String)) :
    ((chosen choices).map Prod.fst).Sublist (choices.map Prod.fst) := by
  induction choices with
  | nil => exact .slnil
  | cons choice choices ih =>
    obtain ⟨setting, value?⟩ := choice
    cases value? with
    | none => exact ih.cons setting
    | some value => exact ih.cons_cons setting

theorem areDistinct_chosen {choices : List (Setting × Option String)}
    (h : (choices.map Prod.fst).Nodup) :
    Values.areDistinct (chosen choices) = true := by
  have hkeys : ((chosen choices).map Prod.fst).Nodup := (sublist_chosen choices).nodup h
  refine List.all_eq_true.mpr fun entry hentry => beq_iff_eq.mpr ?_
  have hcount : ((chosen choices).map Prod.fst).count entry.1 = 1 := by
    rw [hkeys.count, if_pos (List.mem_map_of_mem hentry)]
  rwa [List.count_eq_countP, List.countP_map] at hcount

/-- A setting with its value, as one argument. -/
def flag (entry : Setting × String) : String := "--" ++ entry.1.name ++ "=" ++ entry.2

theorem Setting.name_injective : Function.Injective Setting.name := by
  intro a b h
  cases a <;> cases b <;> first | rfl | exact absurd h (by decide)

theorem find?_name {allowed : List Setting} {setting : Setting} (h : setting ∈ allowed) :
    allowed.find? (fun other => other.name == setting.name) = some setting := by
  induction allowed with
  | nil => cases h
  | cons other allowed ih =>
    rw [List.find?_cons]
    split
    · rename_i heq
      rw [Setting.name_injective (beq_iff_eq.mp heq)]
    · rename_i hne
      rcases List.mem_cons.mp h with rfl | hmem
      · simp at hne
      · exact ih hmem

theorem ofSetting_flag {allowed : List Setting} {entry : Setting × String} (h : entry.1 ∈ allowed)
    (hflag : entry.1.isFlag = false) :
    Item.ofSetting allowed (flag entry) = some ([.given entry.1 entry.2], none) := by
  have htext : (flag entry).toList =
      '-' :: '-' :: (entry.1.name.toList ++ '=' :: entry.2.toList) := by
    simp [flag]
  have hname : ∀ c ∈ entry.1.name.toList, (c != '=') = true := by
    rw [← List.all_eq_true]
    cases entry.1 <;> decide
  unfold Item.ofSetting
  rw [htext]
  simp only [Item.ofName]
  rw [List.takeWhile_append_of_pos hname, List.dropWhile_append_of_pos hname,
    List.takeWhile_cons_of_neg (by simp), List.dropWhile_cons_of_neg (by simp), List.append_nil,
    String.ofList_toList, find?_name h]
  simp [hflag]

theorem ofArguments_flags {allowed : List Setting} {values : Values}
    (h : ∀ entry ∈ values, entry.1 ∈ allowed ∧ entry.1.isFlag = false) (word : String) :
    Item.ofArguments allowed (values.map flag ++ ["--", word]) =
      some (values.map (fun entry => .given entry.1 entry.2) ++ [.word word]) := by
  induction values with
  | nil => simp [Item.ofArguments]
  | cons entry values ih =>
    obtain ⟨⟨hallowed, hflag⟩, hrest⟩ := List.forall_mem_cons.mp h
    have htext : (flag entry).toList =
        '-' :: '-' :: (entry.1.name.toList ++ '=' :: entry.2.toList) := by
      simp [flag]
    have hends : flag entry ≠ "--" := by
      intro heq
      rw [heq] at htext
      simp at htext
    have hsetting : Item.isSetting (flag entry) = true := by
      simp [Item.isSetting, htext]
    rw [List.map_cons, List.cons_append, Item.ofArguments]
    simp only [if_neg hends, hsetting, if_true, ofSetting_flag hallowed hflag, ih hrest,
      Option.map_some]
    rfl

/-- The settings of overrides and a symbol, each with a text for its value. -/
def choicesFor (overrides : Overrides) (symbol : Option String) : List (Setting × Option String) :=
  [(.symbol, symbol), (.scale, overrides.scale.map Binary64.exactText),
    (.axis, overrides.axisMap.map AxisMap.text), (.surface, overrides.defaultSurface),
    (.terrain, overrides.defaultTerrain),
    (.onMalformedVertex, overrides.malformedVertex.map VertexPolicy.name),
    (.tagBinding, overrides.materialUse.map MaterialUse.name), (.tagPrefix, overrides.materialLead)]

theorem read?_of_lookup {α : Type} {values : Values} {setting : Setting} {read : String → Option α}
    {text : α → String} {value? : Option α} (hlookup : values.lookup setting = value?.map text)
    (hread : ∀ value, read (text value) = some value) :
    values.read? setting read = some value? := by
  unfold Values.read?
  rw [hlookup]
  cases value? with
  | none => rfl
  | some value => simp [hread]

section Choices

variable (overrides : Overrides) (symbol : Option String)

theorem nodup_choicesFor : ((choicesFor overrides symbol).map Prod.fst).Nodup := by
  simp [choicesFor]

theorem overrides?_chosen : (chosen (choicesFor overrides symbol)).overrides? = some overrides := by
  have hlookup := lookup_chosen (nodup_choicesFor overrides symbol)
  generalize chosen (choicesFor overrides symbol) = values at hlookup
  have hscale : values.read? .scale (fun text => Binary64.ofText? text.toList) =
      some overrides.scale :=
    read?_of_lookup (hlookup .scale) Binary64.ofText?_exactText
  have haxis : values.read? .axis (fun text => (AxisMap.ofText text).toOption) =
      some overrides.axisMap :=
    read?_of_lookup (hlookup .axis) fun m => by
      rw [m.ofText_text]
      rfl
  have hpolicy : values.read? .onMalformedVertex Document.policyNamed? =
      some overrides.malformedVertex :=
    read?_of_lookup (hlookup .onMalformedVertex) VertexPolicy.policyNamed?_name
  have huse : values.read? .tagBinding Document.materialUseNamed? = some overrides.materialUse :=
    read?_of_lookup (hlookup .tagBinding) MaterialUse.materialUseNamed?_name
  have hsurface : values.lookup .surface = overrides.defaultSurface := hlookup .surface
  have hterrain : values.lookup .terrain = overrides.defaultTerrain := hlookup .terrain
  have hlead : values.lookup .tagPrefix = overrides.materialLead := hlookup .tagPrefix
  unfold Values.overrides?
  simp only [hscale, haxis, hpolicy, huse, read?_some, hsurface, hterrain, hlead,
    Option.bind_eq_bind, Option.bind_some]
  rfl

theorem words_append_word (values : Values) (text : String) :
    Item.words (values.map (fun entry => Item.given entry.1 entry.2) ++ [.word text]) = [text] := by
  simp [Item.words]

theorem settings_append_word (values : Values) (text : String) :
    Item.settings (values.map (fun entry => Item.given entry.1 entry.2) ++ [.word text]) =
      values := by
  simp [Item.settings]

/-- There are arguments for all overrides. -/
theorem exists_asks (input : Path) (h : input.text ≠ "") :
    ∃ arguments, Asks arguments input overrides symbol none := by
  have hkeys := nodup_choicesFor overrides symbol
  have hlookup := lookup_chosen hkeys
  refine ⟨(chosen (choicesFor overrides symbol)).map flag ++ ["--", input.text],
    chosen (choicesFor overrides symbol), ?split, h, overrides?_chosen overrides symbol, ?symbol,
    ?output⟩
  case split =>
    have hsettings : ∀ setting ∈ (choicesFor overrides symbol).map Prod.fst,
        setting ∈ .verbose :: convertSettings ∧ setting.isFlag = false := by
      simp [choicesFor, convertSettings, optionSettings, Setting.isFlag]
    have hflags := ofArguments_flags (fun entry hentry =>
      hsettings entry.1 ((sublist_chosen _).subset (List.mem_map_of_mem hentry))) input.text
    unfold Command.split?
    rw [hflags]
    simp only [Option.bind_eq_bind, Option.bind_some, words_append_word, settings_append_word,
      areDistinct_chosen hkeys, if_true]
  case symbol =>
    rw [hlookup]
    rfl
  case output =>
    unfold Values.read?
    rw [hlookup]
    rfl

end Choices

end Flags

end CommandLine

end CollisionMesh
