import CollisionMesh.Options
import CollisionMesh.Toml.Scalar

/-!
# Options in documents

Options as tables of a document. Keys are looked at in the order of the table, which is
ascending, and the first one that does not fit is the fault. A table of options has no other
keys; a table of overrides may have.
-/

namespace CollisionMesh

set_option autoImplicit false

inductive DocumentFault where
  /-- A text that should be an axis map is none. -/
  | axisMap (fault : AxisMapFault)
  /-- A key that is not known, or a value of the wrong kind. -/
  | malformed
  deriving DecidableEq, Repr

namespace Document

open Toml (Value Table)

/-- The range of the whole numbers that are taken for a number: signed and
unsigned ones of 64 bits. -/
def wholeRange : Int × Int := (-0x8000000000000000, 0x10000000000000000)

/-- A number; a whole one may be written without point. -/
def readScale : Value → Except DocumentFault Binary64
  | .float x => .ok x
  | .integer n =>
    if wholeRange.1 ≤ n ∧ n < wholeRange.2 then .ok (Binary64.ofInt n) else .error .malformed
  | _ => .error .malformed

def readText : Value → Except DocumentFault String
  | .text value => .ok value
  | _ => .error .malformed

def readPath (value : Value) : Except DocumentFault Path := Path.mk <$> readText value

def readTexts : Value → Except DocumentFault (List String)
  | .array items => items.mapM readText
  | _ => .error .malformed

def readAxisMap (value : Value) : Except DocumentFault AxisMap := do
  (AxisMap.ofText (← readText value)).mapError .axisMap

/-- The name of a choice: a text, or the only key of a table with nothing under it. -/
def readChoice : Value → Except DocumentFault String
  | .text name => .ok name
  | .table [(name, .table [])] => .ok name
  | .table [(name, .array [])] => .ok name
  | _ => .error .malformed

def policyNamed? (name : String) : Option VertexPolicy :=
  if name = "fail" then some .fail
  else if name = "skip" then some .skip
  else none

def materialUseNamed? (name : String) : Option MaterialUse :=
  if name = "surface" then some .surface
  else if name = "terrain" then some .terrain
  else if name = "none" then some .ignored
  else none

def readNamed {α : Type} (named? : String → Option α) (value : Value) : Except DocumentFault α := do
  match named? (← readChoice value) with
  | some choice => .ok choice
  | none => .error .malformed

/-- Sets the override that a key names; `none` for a key that names none. -/
def setOverride (overrides : Overrides) (key : String) (value : Value) :
    Option (Except DocumentFault Overrides) :=
  match key with
  | "scale" => some do return { overrides with scale := some (← readScale value) }
  | "axis_map" => some do return { overrides with axisMap := some (← readAxisMap value) }
  | "default_tag" => some do return { overrides with defaultSurface := some (← readText value) }
  | "default_terrain" => some do return { overrides with defaultTerrain := some (← readText value) }
  | "on_malformed_vertex" => some do
    return { overrides with malformedVertex := some (← readNamed policyNamed? value) }
  | "tag_binding" => some do
    return { overrides with materialUse := some (← readNamed materialUseNamed? value) }
  | "tag_prefix" => some do return { overrides with materialLead := some (← readText value) }
  | _ => none

/-- Sets the option that a key names, which must be one. -/
def setOption (options : Options) (key : String) (value : Value) : Except DocumentFault Options :=
  match setOverride {} key value with
  | some overrides => do return (← overrides).apply options
  | none =>
    match key with
    | "symbol" => do return { options with symbol := some (← readText value) }
    | "includes" => do return { options with includes := ← readTexts value }
    | "output_dir" => do return { options with outputDirectory := some (← readPath value) }
    | _ => .error .malformed

/-- The keys of options in the order in which a list gives their values. -/
def optionKeys : List String :=
  ["scale", "axis_map", "default_tag", "default_terrain", "on_malformed_vertex", "tag_binding",
   "tag_prefix", "symbol", "includes", "output_dir"]

/-- Options from keys with values, over the default ones. -/
def readOptionTable (table : Table) : Except DocumentFault Options :=
  table.foldlM (fun options entry => setOption options entry.1 entry.2) Options.default

/-- Options from a table, or from a list of values in the order of `optionKeys`. -/
def readOptions : Value → Except DocumentFault Options
  | .table table => readOptionTable table
  | .array items => readOptionTable (optionKeys.zip items)
  | _ => .error .malformed

/-- Takes one key of a table of overrides; a key that names none may have any
value without overflow. -/
def addOverride (overrides : Overrides) (key : String) (value : Value) :
    Except DocumentFault Overrides :=
  match setOverride overrides key value with
  | some result => result
  | none =>
    if value.isReadable Toml.integerRange.1 Toml.integerRange.2 then .ok overrides
    else .error .malformed

def readOverrides (table : Table) : Except DocumentFault Overrides :=
  table.foldlM (fun overrides entry => addOverride overrides entry.1 entry.2) {}

end Document

end CollisionMesh
