import CollisionMesh.AxisMap
import CollisionMesh.Identifier
import CollisionMesh.Number.Literal
import CollisionMesh.Path
import CollisionMesh.Text.Quoted

/-!
# Options

What a conversion may be told: how space maps to the collision grid, how surfaces and terrains are
named, and where the result goes. `Overrides` are partial options that are laid over complete ones.
-/

namespace CollisionMesh

set_option autoImplicit false

/-- What becomes of a vertex line that cannot be read. -/
inductive VertexPolicy where
  | fail
  | skip
  deriving DecidableEq, Repr, Inhabited

/-- Which field of a surface record the material of a face fills. -/
inductive MaterialUse where
  | surface
  | terrain
  | ignored
  deriving DecidableEq, Repr, Inhabited

structure Options where
  /-- Factor that is applied after the axis map. -/
  scale : Binary64
  axisMap : AxisMap
  /-- Surface of faces whose material does not fill it. -/
  defaultSurface : String
  /-- Terrain of faces whose material does not fill it. -/
  defaultTerrain : String
  malformedVertex : VertexPolicy
  materialUse : MaterialUse
  /-- Text that stands before material names. -/
  materialLead : String
  /-- Name of the generated array, without ending; the stem of the input if absent. -/
  symbol : Option String
  /-- Headers that the generated file includes. -/
  includes : List String
  /-- Directory of the generated file; that of the input if absent. -/
  outputDirectory : Option Path
  deriving DecidableEq, Repr

/-- The options of a conversion that is told nothing. -/
def Options.default : Options where
  scale := Binary64.ofInt 50
  axisMap := AxisMap.zUpToYUp
  defaultSurface := "SURFACE_DEFAULT"
  defaultTerrain := "TERRAIN_STONE"
  malformedVertex := .fail
  materialUse := .surface
  materialLead := ""
  symbol := none
  includes := ["level.h", "../src/decomp/include/surface_terrains.h"]
  outputDirectory := none

instance : Inhabited Options := ⟨Options.default⟩

/-- Partial options: each field that is present takes the place of the one below. -/
structure Overrides where
  scale : Option Binary64 := none
  axisMap : Option AxisMap := none
  defaultSurface : Option String := none
  defaultTerrain : Option String := none
  malformedVertex : Option VertexPolicy := none
  materialUse : Option MaterialUse := none
  materialLead : Option String := none
  deriving DecidableEq, Repr, Inhabited

/-- Lays partial options over complete ones. -/
def Overrides.apply (overrides : Overrides) (base : Options) : Options :=
  { base with
    scale := overrides.scale.getD base.scale
    axisMap := overrides.axisMap.getD base.axisMap
    defaultSurface := overrides.defaultSurface.getD base.defaultSurface
    defaultTerrain := overrides.defaultTerrain.getD base.defaultTerrain
    malformedVertex := overrides.malformedVertex.getD base.malformedVertex
    materialUse := overrides.materialUse.getD base.materialUse
    materialLead := overrides.materialLead.getD base.materialLead }

/-- The option that holds a name which must be an identifier. -/
inductive NameOption where
  | surface
  | terrain
  deriving DecidableEq, Repr

def NameOption.key : NameOption → String
  | surface => "default_tag"
  | terrain => "default_terrain"

inductive OptionsFault where
  | axisMap (fault : AxisMapFault)
  /-- The scale is infinite or NaN. -/
  | scaleNotFinite (scale : Binary64)
  | notIdentifier (option : NameOption) (value : String)
  /-- Other inputs would be written to the output of this one. -/
  | outputShared (input : Path) (others : List Path) (output : Path)
  deriving DecidableEq, Repr

/-- How a scale is named that is no finite number. -/
def scaleText : Binary64 → String
  | .nan => "NaN"
  | .infinite true => "-inf"
  | .infinite false => "inf"
  | .finite _ _ => "a finite number"

def OptionsFault.message : OptionsFault → String
  | axisMap fault => fault.message
  | scaleNotFinite scale => "scale must be finite, got " ++ scaleText scale
  | notIdentifier option value =>
    option.key ++ " `" ++ value ++ "` is not a valid C identifier"
  | outputShared input others output =>
    Text.quote input.text ++ " and " ++
      ", ".intercalate (others.map fun other => Text.quote other.text) ++
      " would both be written to " ++ Text.quote output.text

/-- Refuses options that cannot be honoured; the scale is looked at first,
then surface and terrain. -/
def Options.validate (options : Options) : Except OptionsFault Unit :=
  if !options.scale.isFinite then .error (.scaleNotFinite options.scale)
  else if !Identifier.isIdentifier options.defaultSurface then
    .error (.notIdentifier .surface options.defaultSurface)
  else if !Identifier.isIdentifier options.defaultTerrain then
    .error (.notIdentifier .terrain options.defaultTerrain)
  else .ok ()

theorem Options.validate_eq_ok_iff (options : Options) :
    options.validate = .ok () ↔
      options.scale.isFinite = true ∧ Identifier.isIdentifier options.defaultSurface = true ∧
        Identifier.isIdentifier options.defaultTerrain = true := by
  unfold Options.validate
  split
  · simp_all
  · split
    · simp_all
    · split <;> simp_all

end CollisionMesh
