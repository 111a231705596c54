import CollisionMesh.Proofs.SurfaceRecords
import Mathlib.Logic.Equiv.Defs

/-!
# Signed permutations of the grid

An axis map is a signed permutation, and it may come before the scale and the grid or after them:
products and whole parts change their sign with the number, and the limits of the grid are
symmetric, though those of 64-bit integers are not. So a change of axes or of the sign of the scale
moves the corners of all records and nothing else.
-/

namespace CollisionMesh

set_option autoImplicit false

namespace Binary64

theorem ofRatio_not (negative : Bool) (num den : Nat) :
    ofRatio (!negative) num den = (ofRatio negative num den).neg := by
  unfold ofRatio
  by_cases h : nearestCode num den < magnitudeCount
  · rw [dif_pos h, dif_pos h, neg]
  · rw [dif_neg h, dif_neg h, neg]

theorem neg_mul (x y : Binary64) : x.neg.mul y = (x.mul y).neg := by
  cases x with
  | nan => rfl
  | infinite s =>
    cases y with
    | nan => rfl
    | infinite t => simp only [neg, mul, Bool.not_bne]
    | finite t b =>
      simp only [neg, mul]
      split <;> simp only [Bool.not_bne]
  | finite s a =>
    cases y with
    | nan => rfl
    | infinite t =>
      simp only [neg, mul]
      split <;> simp only [Bool.not_bne]
    | finite t b => rw [neg, mul, mul, Bool.not_bne, ofRatio_not]

theorem mul_comm (x y : Binary64) : x.mul y = y.mul x := by
  have hsign : ∀ s t : Bool, (s != t) = (t != s) := by decide
  cases x <;> cases y <;> simp only [mul, Nat.mul_comm, hsign]

theorem mul_neg (x y : Binary64) : x.mul y.neg = (x.mul y).neg := by
  rw [mul_comm, neg_mul, mul_comm]

/-- Held to the 64-bit range and then to the grid, a number and its opposite stay opposite: the
wider bounds, which are not symmetric, are behind the narrower ones, which are. -/
theorem held_neg (n : Int) :
    (max (-gridLimit) (min gridLimit (holdToInt64 (-n))),
        max (-gridLimit) (min gridLimit (holdToInt64 (-n))) != holdToInt64 (-n)) =
      (-max (-gridLimit) (min gridLimit (holdToInt64 n)),
        max (-gridLimit) (min gridLimit (holdToInt64 n)) != holdToInt64 n) := by
  unfold gridLimit holdToInt64 int64Limit
  refine Prod.ext ?_ ?_
  · simp only
    omega
  · rw [Bool.eq_iff_iff, bne_iff_ne, bne_iff_ne]
    omega

theorem toGrid_neg (x : Binary64) : x.neg.toGrid = (-x.toGrid.1, x.toGrid.2) := by
  cases x with
  | nan => decide
  | infinite negative => cases negative <;> decide
  | finite negative code =>
    cases negative with
    | false => exact held_neg _
    | true =>
      have hheld := held_neg (-(units code / unitsPerOne : Int))
      rw [Int.neg_neg] at hheld
      exact hheld

end Binary64

namespace Point

variable {α : Type}

def reorder (order : Equiv.Perm Axis) (p : Point α) : Point α := ofFn fun axis => p.get (order axis)

def negateAt (changed : Axis) (p : Point Int) : Point Int :=
  ofFn fun axis => if axis = changed then -p.get axis else p.get axis

end Point

/-- The component that a signed axis takes from a point, with a negation of
components of this kind. -/
def SignedAxis.take {α : Type} (negate : α → α) (source : SignedAxis) (p : Point α) : α :=
  if source.negated then negate (p.get source.axis) else p.get source.axis

namespace AxisMap

variable {α β : Type}

theorem ext_sources {m other : AxisMap} (h : ∀ axis, m.sources.get axis = other.sources.get axis) :
    m = other := by
  have hx := h .x
  have hy := h .y
  have hz := h .z
  cases m
  cases other
  cases hx
  cases hy
  cases hz
  rfl

theorem axis_injective (m : AxisMap) :
    Function.Injective fun axis => (m.sources.get axis).axis := by
  obtain ⟨hxy, hxz, hyz⟩ := m.distinct
  intro a b h
  cases a <;> cases b <;> simp_all [sources, Point.get, eq_comm]

/-- The map with a source for each axis, no two with the same axis. -/
def ofFn (source : Axis → SignedAxis) (h : Function.Injective fun axis => (source axis).axis) :
    AxisMap :=
  ⟨source .x, source .y, source .z, h.ne (by decide), h.ne (by decide), h.ne (by decide)⟩

@[simp] theorem get_sources_ofFn (source : Axis → SignedAxis)
    (h : Function.Injective fun axis => (source axis).axis) (axis : Axis) :
    (ofFn source h).sources.get axis = source axis := by
  cases axis <;> rfl

/-- The map with the sign of one target axis changed. -/
def flip (m : AxisMap) (changed : Axis) : AxisMap :=
  ofFn (fun axis =>
      ⟨(m.sources.get axis).axis, (m.sources.get axis).negated ^^ decide (axis = changed)⟩)
    m.axis_injective

/-- The map with its sources at other targets. -/
def reorder (m : AxisMap) (order : Equiv.Perm Axis) : AxisMap :=
  ofFn (fun axis => m.sources.get (order axis)) (m.axis_injective.comp order.injective)

/-- One map behind another: what the first one takes is taken from what the second one gives. -/
def after (turn m : AxisMap) : AxisMap :=
  ofFn (fun axis =>
      let source := turn.sources.get axis
      let origin := m.sources.get source.axis
      ⟨origin.axis, source.negated ^^ origin.negated⟩)
    (m.axis_injective.comp turn.axis_injective)

/-- The map acting on points with any negation of components. -/
def carry (negate : α → α) (m : AxisMap) (p : Point α) : Point α :=
  m.sources.map fun source => source.take negate p

theorem apply_eq_carry (m : AxisMap) (p : Point Binary64) :
    m.apply p = m.carry Binary64.neg p := rfl

@[simp] theorem get_carry (negate : α → α) (m : AxisMap) (p : Point α) (axis : Axis) :
    (m.carry negate p).get axis = (m.sources.get axis).take negate p := by
  rw [carry, Point.get_map]

/-- Turning comes before or after any change of components that respects the negations. -/
theorem map_carry {negate : α → α} {negate' : β → β} {f : α → β}
    (hf : ∀ x, f (negate x) = negate' (f x)) (m : AxisMap) (p : Point α) :
    (m.carry negate p).map f = m.carry negate' (p.map f) := by
  apply Point.ext_get
  intro axis
  rw [Point.get_map, get_carry, get_carry, SignedAxis.take, SignedAxis.take, Point.get_map]
  split
  · exact hf _
  · rfl

theorem carry_after {negate : α → α} (hnegate : ∀ x, negate (negate x) = x) (outer m : AxisMap)
    (p : Point α) :
    (outer.after m).carry negate p = outer.carry negate (m.carry negate p) := by
  apply Point.ext_get
  intro axis
  simp only [get_carry, after, get_sources_ofFn, SignedAxis.take]
  cases (outer.sources.get axis).negated <;>
    cases (m.sources.get (outer.sources.get axis).axis).negated <;> simp [hnegate]

theorem perm_axes (m : AxisMap) : [m.x.axis, m.y.axis, m.z.axis].Perm [.x, .y, .z] := by
  obtain ⟨hxy, hxz, hyz⟩ := m.distinct
  generalize m.x.axis = a at hxy hxz ⊢
  generalize m.y.axis = b at hxy hyz ⊢
  generalize m.z.axis = c at hxz hyz ⊢
  cases a <;> cases b <;> cases c <;> simp at hxy hxz hyz <;> decide

theorem countP_carry {negate : α → α} {p : α → Bool} (hp : ∀ x, p (negate x) = p x) (m : AxisMap)
    (point : Point α) :
    (m.carry negate point).toList.countP p = point.toList.countP p := by
  have hsigns : ∀ source : SignedAxis,
      p (source.take negate point) = p (point.get source.axis) := by
    intro source
    unfold SignedAxis.take
    split
    · exact hp _
    · rfl
  have hperm : ([m.x.axis, m.y.axis, m.z.axis].map point.get).Perm point.toList :=
    m.perm_axes.map point.get
  rw [← hperm.countP_eq]
  simp only [carry, sources, Point.map, Point.toList, List.map_cons, List.map_nil, List.countP_cons,
    hsigns]

def signs (changed : Axis → Bool) : AxisMap :=
  ofFn (fun axis => ⟨axis, changed axis⟩) Function.injective_id

def ordered (order : Equiv.Perm Axis) : AxisMap :=
  ofFn (fun axis => ⟨order axis, false⟩) order.injective

theorem flip_eq_after (m : AxisMap) (changed : Axis) :
    m.flip changed = (signs fun axis => decide (axis = changed)).after m := by
  apply ext_sources
  intro axis
  simp only [flip, after, signs, get_sources_ofFn, Bool.xor_comm]

theorem reorder_eq_after (m : AxisMap) (order : Equiv.Perm Axis) :
    m.reorder order = (ordered order).after m := by
  apply ext_sources
  intro axis
  simp only [reorder, after, ordered, get_sources_ofFn, Bool.false_xor]

theorem carry_signs {α : Type} (negate : α → α) (changed : Axis → Bool) (p : Point α) :
    (signs changed).carry negate p =
      Point.ofFn fun axis => if changed axis then negate (p.get axis) else p.get axis := by
  apply Point.ext_get
  intro axis
  simp only [get_carry, signs, get_sources_ofFn, SignedAxis.take, Point.get_ofFn]

theorem carry_ordered (order : Equiv.Perm Axis) (p : Point Int) :
    (ordered order).carry Neg.neg p = p.reorder order := by
  apply Point.ext_get
  intro axis
  simp only [get_carry, ordered, get_sources_ofFn, SignedAxis.take, Point.reorder, Point.get_ofFn,
    Bool.false_eq_true, if_false]

end AxisMap

def SurfaceRecord.moved (move : Point Int → Point Int) (record : SurfaceRecord) : SurfaceRecord :=
  { record with corners := record.corners.map move }

theorem SurfaceRecord.moved_ofTriangle (move : Point Int → Point Int) (options : Options)
    (t : Triangle Int) :
    (ofTriangle options t).moved move = ofTriangle options ⟨t.corners.map move, t.tag⟩ := by
  rfl

/-- The records moved, in their order, and the count of clamped components as it is. -/
def movedRecords (move : Point Int → Point Int) (outcome : List SurfaceRecord × Nat) :
    List SurfaceRecord × Nat :=
  (outcome.1.map (SurfaceRecord.moved move), outcome.2)

/-- Options that say the same about names, and whose scaled points are the turned ones. -/
structure Options.Turned (options other : Options) (turn : AxisMap) : Prop where
  naming : SurfaceRecord.ofTriangle other = SurfaceRecord.ofTriangle options
  scaled : ∀ p, other.scalePoint p = turn.carry Binary64.neg (options.scalePoint p)

namespace Options.Turned

variable {options other : Options} {turn : AxisMap}

theorem toGrid_scalePoint (h : Turned options other turn) (p : Point Binary64) :
    (other.scalePoint p).toGrid = turn.carry Neg.neg (options.scalePoint p).toGrid := by
  rw [h.scaled, Point.toGrid, Point.toGrid]
  exact AxisMap.map_carry (fun x => by rw [Binary64.toGrid_neg]) turn _

theorem ofTriangle_toGrid (h : Turned options other turn) (t : Triangle Binary64) :
    SurfaceRecord.ofTriangle other (t.toGrid other) =
      (SurfaceRecord.ofTriangle options (t.toGrid options)).moved (turn.carry Neg.neg) := by
  have hcorners : (t.toGrid other).corners =
      (t.toGrid options).corners.map (turn.carry Neg.neg) := by
    simp only [Triangle.toGrid, Triangle.scaledCorners, Corners.toGrid, Corners.map,
      h.toGrid_scalePoint]
  rw [h.naming, SurfaceRecord.moved_ofTriangle, ← hcorners]
  rfl

theorem clampedCount (h : Turned options other turn) (ts : List (Triangle Binary64)) :
    CollisionMesh.clampedCount (ts.map fun t => t.scaledCorners other) =
      CollisionMesh.clampedCount (ts.map fun t => t.scaledCorners options) := by
  have hpoint : ∀ p, (other.scalePoint p).toList.countP (fun x => x.toGrid.2) =
      (options.scalePoint p).toList.countP fun x => x.toGrid.2 := by
    intro p
    rw [h.scaled]
    exact AxisMap.countP_carry (fun x => by rw [Binary64.toGrid_neg]) turn _
  apply clampedCount_map_congr
  intro t
  simp only [Corners.components, Triangle.scaledCorners, Corners.toList_map, List.flatMap_map,
    List.countP_flatMap, Function.comp_def, hpoint]

end Options.Turned

theorem Options.turned_after (options : Options) (turn : AxisMap) :
    Turned options { options with axisMap := turn.after options.axisMap } turn where
  naming := rfl
  scaled := by
    intro p
    simp only [scalePoint, AxisMap.apply_eq_carry, AxisMap.carry_after Binary64.neg_neg]
    exact AxisMap.map_carry (fun x => Binary64.neg_mul x options.scale) turn _

theorem Options.turned_neg (options : Options) :
    Turned options { options with scale := options.scale.neg } (AxisMap.signs fun _ => true) where
  naming := rfl
  scaled := by
    intro p
    rw [AxisMap.carry_signs]
    simp only [scalePoint, Binary64.mul_neg]
    rfl

namespace Mesh

theorem surfaceRecords_of_turned {options other : Options} {turn : AxisMap}
    (h : Options.Turned options other turn) (mesh : Mesh) :
    mesh.surfaceRecords other = (mesh.surfaceRecords options).map
      (movedRecords (turn.carry Neg.neg)) := by
  cases htriangles : mesh.triangulate with
  | error failure =>
    rw [surfaceRecords_of_triangulate_error other htriangles,
      surfaceRecords_of_triangulate_error options htriangles]
    rfl
  | ok ts =>
    by_cases hnil : ts = []
    · subst hnil
      rw [surfaceRecords_of_triangulate_nil other htriangles,
        surfaceRecords_of_triangulate_nil options htriangles]
      rfl
    · rw [surfaceRecords_of_triangulate other htriangles hnil,
        surfaceRecords_of_triangulate options htriangles hnil, h.clampedCount]
      simp only [Except.map, movedRecords, List.map_map, h.ofTriangle_toGrid, Function.comp_def]

/-- Changing the sign of a target axis negates that component of every corner, moving the sources to
other targets moves the components with them, and changing the sign of the scale negates all.
Nothing else changes: neither the failure, if there is one, nor the number of records, their names
or the count of clamped components. -/
theorem surfaceRecords_equivariant (mesh : Mesh) (options : Options) :
    (∀ changed : Axis,
      mesh.surfaceRecords { options with axisMap := options.axisMap.flip changed } =
        (mesh.surfaceRecords options).map (movedRecords (Point.negateAt changed))) ∧
    (∀ order : Equiv.Perm Axis,
      mesh.surfaceRecords { options with axisMap := options.axisMap.reorder order } =
        (mesh.surfaceRecords options).map (movedRecords (Point.reorder order))) ∧
    mesh.surfaceRecords { options with scale := options.scale.neg } =
      (mesh.surfaceRecords options).map (movedRecords (Point.map Neg.neg)) := by
  refine ⟨fun changed => ?_, fun order => ?_, ?_⟩
  · have hcarry : (AxisMap.signs fun axis => decide (axis = changed)).carry Neg.neg =
        Point.negateAt changed := by
      funext p
      simp only [AxisMap.carry_signs, Point.negateAt, decide_eq_true_eq]
    rw [AxisMap.flip_eq_after, surfaceRecords_of_turned (options.turned_after _), hcarry]
  · have hcarry : (AxisMap.ordered order).carry Neg.neg = Point.reorder order :=
      funext (AxisMap.carry_ordered order)
    rw [AxisMap.reorder_eq_after, surfaceRecords_of_turned (options.turned_after _), hcarry]
  · have hcarry : (AxisMap.signs fun _ => true).carry Neg.neg = Point.map Neg.neg := by
      funext p
      rw [AxisMap.carry_signs]
      rfl
    rw [surfaceRecords_of_turned options.turned_neg, hcarry]

end Mesh

end CollisionMesh
