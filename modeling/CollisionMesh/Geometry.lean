import CollisionMesh.Number.Binary64

/-!
# Points and triangles

A point has one component for each of the three axes, over any type of components: binary64 numbers
in mesh space, whole numbers on the collision grid. A triangle keeps its corners in winding order
and the material under which its face was declared.
-/

namespace CollisionMesh

set_option autoImplicit false

inductive Axis where
  | x
  | y
  | z
  deriving DecidableEq, Repr, Inhabited

structure Point (α : Type) where
  x : α
  y : α
  z : α
  deriving DecidableEq, Repr, Inhabited

namespace Point

variable {α β : Type}

def get (p : Point α) : Axis → α
  | .x => p.x
  | .y => p.y
  | .z => p.z

def ofFn (f : Axis → α) : Point α := ⟨f .x, f .y, f .z⟩

def map (f : α → β) (p : Point α) : Point β := ⟨f p.x, f p.y, f p.z⟩

def toList (p : Point α) : List α := [p.x, p.y, p.z]

@[simp] theorem get_ofFn (f : Axis → α) (a : Axis) : (ofFn f).get a = f a := by
  cases a <;> rfl

@[simp] theorem ofFn_get (p : Point α) : ofFn p.get = p := rfl

@[simp] theorem get_map (f : α → β) (p : Point α) (a : Axis) : (p.map f).get a = f (p.get a) := by
  cases a <;> rfl

@[simp] theorem toList_map (f : α → β) (p : Point α) : (p.map f).toList = p.toList.map f := rfl

theorem ext_get {p q : Point α} (h : ∀ a, p.get a = q.get a) : p = q := by
  rw [← ofFn_get p, ← ofFn_get q, funext h]

end Point

/-- Three corners in winding order. -/
structure Corners (α : Type) where
  a : Point α
  b : Point α
  c : Point α
  deriving DecidableEq, Repr, Inhabited

namespace Corners

variable {α β : Type}

def map (f : Point α → Point β) (t : Corners α) : Corners β := ⟨f t.a, f t.b, f t.c⟩

def toList (t : Corners α) : List (Point α) := [t.a, t.b, t.c]

/-- The nine components, corner by corner. -/
def components (t : Corners α) : List α := t.toList.flatMap Point.toList

@[simp] theorem toList_map (f : Point α → Point β) (t : Corners α) :
    (t.map f).toList = t.toList.map f := rfl

end Corners

/-- A triangle and the material of the face it was cut from. -/
structure Triangle (α : Type) where
  corners : Corners α
  tag : Option String
  deriving DecidableEq, Repr, Inhabited

end CollisionMesh
