import CollisionMesh.CommandLine.Arguments
import CollisionMesh.Options.Document

/-!
# Commands

What the arguments ask for. Arguments that do not make up a command are a usage error,
whatever is wrong with them.
-/

namespace CollisionMesh.CommandLine

set_option autoImplicit false

inductive Command where
  | convert (input : Path) (output : Option Path) (options : Options)
  | batch (directory : Path) (recursive : Bool) (options : Options)
  | build (manifest : Path) (output : Option Path)
  | check (manifest : Path)
  | exportTriangles (input : Path) (output : Option Path) (options : Options)
  | importTriangles (input : Path) (output : Option Path) (options : Options)
  deriving DecidableEq, Repr

inductive Request where
  | version
  | run (command : Command)
  deriving DecidableEq, Repr

/-- The settings that every command but those on manifests takes for its options. -/
def optionSettings : List Setting :=
  [.scale, .axis, .surface, .terrain, .tagBinding, .tagPrefix, .onMalformedVertex]

/-- The values of settings, no setting twice. -/
abbrev Values := List (Setting × String)

namespace Values

def areDistinct (values : Values) : Bool :=
  values.all fun entry => values.countP (fun other => other.1 == entry.1) == 1

/-- Reads the value of a setting if it is there; the outer result says whether it could be read. -/
def read? {α : Type} (values : Values) (setting : Setting) (read : String → Option α) :
    Option (Option α) :=
  match values.lookup setting with
  | none => some none
  | some value => (read value).map some

/-- A path, which must not be empty. -/
def readPath? (text : String) : Option Path := if text.isEmpty then none else some ⟨text⟩

def options? (values : Values) : Option Options := do
  let overrides : Overrides := {
    scale := ← values.read? .scale fun text => Binary64.ofText? text.toList
    axisMap := ← values.read? .axis fun text => (AxisMap.ofText text).toOption
    defaultSurface := ← values.read? .surface some
    defaultTerrain := ← values.read? .terrain some
    malformedVertex := ← values.read? .onMalformedVertex Document.policyNamed?
    materialUse := ← values.read? .tagBinding Document.materialUseNamed?
    materialLead := ← values.read? .tagPrefix some }
  return overrides.apply Options.default

end Values

namespace Command

/-- The only word, which must be a path. -/
def onlyPath? : List String → Option Path
  | [text] => Values.readPath? text
  | _ => none

/-- The only word, or the file in which a manifest is looked for if there is none. -/
def manifestPath? : List String → Option Path
  | [] => some ⟨"collision.toml"⟩
  | words => onlyPath? words

/-- The words and values of the arguments behind a command. -/
def split? (allowed : List Setting) (arguments : List String) : Option (List String × Values) := do
  let items ← Item.ofArguments (.verbose :: allowed) arguments
  let values := Item.settings items
  if Values.areDistinct values then some (Item.words items, values) else none

def ofFile? (make : Path → Option Path → Options → Command) (allowed : List Setting)
    (arguments : List String) : Option Command := do
  let (words, values) ← split? (.output :: allowed ++ optionSettings) arguments
  let input ← onlyPath? words
  let output ← values.read? .output Values.readPath?
  let symbol ← values.read? .symbol some
  let options ← values.options?
  return make input output { options with symbol := symbol }

def ofArguments? (name : String) (arguments : List String) : Option Command :=
  match name with
  | "convert" => ofFile? convert [.symbol] arguments
  | "batch" => do
    let (words, values) ← split? (.output :: .recursive :: optionSettings) arguments
    let directory ← onlyPath? words
    let output ← values.read? .output Values.readPath?
    let options ← values.options?
    return batch directory (values.lookup .recursive).isSome
      { options with outputDirectory := output }
  | "build" => do
    let (words, values) ← split? [.output] arguments
    return build (← manifestPath? words) (← values.read? .output Values.readPath?)
  | "check" => do
    let (words, _) ← split? [] arguments
    return check (← manifestPath? words)
  | "json" => ofFile? exportTriangles [] arguments
  | "from-json" => ofFile? importTriangles [.symbol] arguments
  | _ => none

end Command

namespace Request

/-- What flags written before a command ask for: `none` for a usage error, else
whether it is the version. -/
def readFlags (flags : List Item) (seen : Bool) : Option (Bool × Bool) :=
  match flags with
  | [] => some (false, seen)
  | .given .version _ :: _ => some (true, seen)
  | .given .verbose _ :: rest => if seen then none else readFlags rest true
  | _ :: _ => none

/-- What arguments ask for when a flag has been `seen` before them or not. -/
def ofArgumentsFrom? (seen : Bool) : List String → Option Request
  | [] => none
  | argument :: rest =>
    if Item.isSetting argument then
      match Item.ofSetting [.verbose, .version] argument with
      | some (flags, none) =>
        match readFlags flags seen with
        | some (true, _) => some .version
        | some (false, seen) => ofArgumentsFrom? seen rest
        | none => none
      | _ => none
    else (Command.ofArguments? argument rest).map .run

def ofArguments? (arguments : List String) : Option Request := ofArgumentsFrom? false arguments

end Request

end CollisionMesh.CommandLine
