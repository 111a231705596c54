import CollisionMesh.Geometry
import CollisionMesh.Text.Blank
import CollisionMesh.Text.LowerCase

/-!
# Axis maps

A signed permutation of the axes: for each axis of the collision grid, the axis of mesh space that
feeds it and whether it is negated. It is written as three signed axis names such as `x,z,-y`, or
as the name of a preset.
-/

namespace CollisionMesh

set_option autoImplicit false

def Axis.letter : Axis → Char
  | .x => 'x'
  | .y => 'y'
  | .z => 'z'

/-- The axis that a text of one letter names, in either case. -/
def Axis.named? (name : List Char) : Option Axis :=
  let name := Text.lower name
  if name = ['x'] then some .x
  else if name = ['y'] then some .y
  else if name = ['z'] then some .z
  else none

structure SignedAxis where
  axis : Axis
  negated : Bool
  deriving DecidableEq, Repr, Inhabited

namespace SignedAxis

def pick (source : SignedAxis) (p : Point Binary64) : Binary64 :=
  if source.negated then (p.get source.axis).neg else p.get source.axis

def text (source : SignedAxis) : String :=
  if source.negated then String.ofList ['-', source.axis.letter]
  else String.ofList [source.axis.letter]

def ofName? (negated : Bool) (name : List Char) : Option SignedAxis :=
  (Axis.named? name).map fun axis => ⟨axis, negated⟩

/-- One optional sign and then one axis letter. -/
def ofText? : List Char → Option SignedAxis
  | '-' :: name => ofName? true name
  | '+' :: name => ofName? false name
  | name => ofName? false name

end SignedAxis

/-- A signed permutation: the source of each target axis, no source axis used twice. -/
structure AxisMap where
  x : SignedAxis
  y : SignedAxis
  z : SignedAxis
  distinct : x.axis ≠ y.axis ∧ x.axis ≠ z.axis ∧ y.axis ≠ z.axis
  deriving DecidableEq, Repr

/-- Why a text or a choice of sources is no axis map. -/
inductive AxisMapFault where
  /-- The text is no preset and has not three parts. -/
  | wrongCount (text : String)
  /-- A part is not a signed axis name. -/
  | unknownAxis (part text : String)
  /-- A source axis feeds a second target. -/
  | repeatedAxis (axis : Axis)
  deriving DecidableEq, Repr

def AxisMapFault.message : AxisMapFault → String
  | wrongCount text =>
    "axis map `" ++ text ++
      "` must name three axes (e.g. `x,z,-y`) or a preset (identity, blender)"
  | unknownAxis part text => "invalid axis `" ++ part ++ "` in axis map `" ++ text ++ "`"
  | repeatedAxis axis =>
    "axis map uses source axis '" ++ String.singleton axis.letter ++ "' more than once"

namespace AxisMap

def identity : AxisMap := ⟨⟨.x, false⟩, ⟨.y, false⟩, ⟨.z, false⟩, by decide⟩

/-- From a space in which `z` points up to one in which `y` does: `x,z,-y`. -/
def zUpToYUp : AxisMap := ⟨⟨.x, false⟩, ⟨.z, false⟩, ⟨.y, true⟩, by decide⟩

instance : Inhabited AxisMap := ⟨identity⟩

/-- The map with the given sources, in target order; the first axis that comes a
second time is the fault. -/
def ofSources (x y z : SignedAxis) : Except AxisMapFault AxisMap :=
  if hy : x.axis = y.axis then .error (.repeatedAxis y.axis)
  else if hz : x.axis = z.axis ∨ y.axis = z.axis then .error (.repeatedAxis z.axis)
  else .ok ⟨x, y, z, hy, fun h => hz (.inl h), fun h => hz (.inr h)⟩

def sources (m : AxisMap) : Point SignedAxis := ⟨m.x, m.y, m.z⟩

/-- Carries a point over to target order. -/
def apply (m : AxisMap) (p : Point Binary64) : Point Binary64 :=
  m.sources.map fun source => source.pick p

def text (m : AxisMap) : String :=
  m.x.text ++ "," ++ m.y.text ++ "," ++ m.z.text

def preset? (name : List Char) : Option AxisMap :=
  if name = "identity".toList then some identity
  else if name = "blender".toList then some zUpToYUp
  else none

def readSource (text : String) (part : List Char) : Except AxisMapFault SignedAxis :=
  match SignedAxis.ofText? (Text.trim part) with
  | some source => .ok source
  | none => .error (.unknownAxis (String.ofList (Text.trim part)) text)

/-- Reads a preset name in any case, or three signed axis names separated by commas. -/
def ofText (text : String) : Except AxisMapFault AxisMap :=
  match preset? (Text.lower (Text.trim text.toList)) with
  | some m => .ok m
  | none =>
    match text.toList.splitOn ',' with
    | [x, y, z] => do
      let x ← readSource text x
      let y ← readSource text y
      let z ← readSource text z
      ofSources x y z
    | _ => .error (.wrongCount text)

@[simp] theorem get_sources_apply (m : AxisMap) (p : Point Binary64) (a : Axis) :
    (m.apply p).get a = (m.sources.get a).pick p := by
  simp [apply]

theorem sources_ofSources {x y z : SignedAxis} {m : AxisMap} (h : ofSources x y z = .ok m) :
    m.sources = ⟨x, y, z⟩ := by
  unfold ofSources at h
  split at h
  · cases h
  · split at h <;> cases h
    rfl

end AxisMap

end CollisionMesh
