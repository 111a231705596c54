import CollisionMesh.Proofs.Triangulation
import Mathlib.Algebra.BigOperators.Group.List.Basic
import Mathlib.Algebra.Module.Pi
import Mathlib.Algebra.Order.Ring.Rat
import Mathlib.Tactic.Ring

/-!
# The boundary of a fan

The triangles of a fan have the edges of the polygon, each of them once and in its direction, and
each diagonal once in either direction. So whatever is summed along edges and turns its sign with
them, such as twice the vector area of what they go around, is the same for the polygon and for its
triangles, however the polygon lies.
-/

namespace CollisionMesh

set_option autoImplicit false

variable {α : Type}

/-- The directed edges of the polygon with this many corners, each to the next one and
the last to the first. -/
def polygonEdges (count : Nat) (corner : Nat → α) : List (α × α) :=
  (List.range count).map fun i => (corner i, corner ((i + 1) % count))

/-- The diagonals from the first corner, those to its neighbours left out. -/
def diagonals (count : Nat) (corner : Nat → α) : List (α × α) :=
  (List.range (count - 3)).map fun i => (corner 0, corner (i + 2))

def Corners.edges (t : Corners α) : List (Point α × Point α) := [(t.a, t.b), (t.b, t.c), (t.c, t.a)]

/-- The fan of the polygon with these corners: each triangle has the first corner
and the ends of an edge. -/
def fanOf (count : Nat) (corner : Nat → Point α) : List (Corners α) :=
  (List.range (count - 2)).map fun i => ⟨corner 0, corner (i + 1), corner (i + 2)⟩

theorem polygonEdges_succ (count : Nat) (corner : Nat → α) :
    polygonEdges (count + 1) corner =
      ((List.range count).map fun i => (corner i, corner (i + 1))) ++
        [(corner count, corner 0)] := by
  have hnext : ∀ i ∈ List.range count,
      (corner i, corner ((i + 1) % (count + 1))) = (corner i, corner (i + 1)) := by
    intro i hi
    have hi := List.mem_range.mp hi
    rw [Nat.mod_eq_of_lt (by omega)]
  rw [polygonEdges, List.range_succ, List.map_append, List.map_congr_left hnext, List.map_singleton,
    Nat.mod_self]

theorem fanOf_succ {count : Nat} (h : 2 ≤ count) (corner : Nat → Point α) :
    fanOf (count + 1) corner = fanOf count corner ++
      [⟨corner 0, corner (count - 1), corner count⟩] := by
  obtain ⟨count, rfl⟩ := Nat.exists_eq_add_of_le' h
  have hnext : count + 2 + 1 - 2 = count + 1 := by omega
  rw [fanOf, fanOf, hnext, List.range_succ, List.map_append, List.map_singleton]
  rfl

theorem diagonals_succ {count : Nat} (h : 3 ≤ count) (corner : Nat → α) :
    diagonals (count + 1) corner = diagonals count corner ++ [(corner 0, corner (count - 1))] := by
  obtain ⟨count, rfl⟩ := Nat.exists_eq_add_of_le' h
  have hnext : count + 3 + 1 - 3 = count + 1 := by omega
  rw [diagonals, diagonals, hnext, List.range_succ, List.map_append, List.map_singleton]
  rfl

/-- The triangles of a fan have the edges of the polygon, and each diagonal in both directions. -/
theorem edges_fanOf_perm {count : Nat} (h : 3 ≤ count) (corner : Nat → Point α) :
    ((fanOf count corner).flatMap Corners.edges).Perm
      (polygonEdges count corner ++ (diagonals count corner).flatMap fun d => [d, d.swap]) := by
  induction count, h using Nat.le_induction with
  | base => exact .refl _
  | succ count h ih =>
    classical
    -- one more corner takes the closing edge away, and the new triangle has that edge in
    -- the other direction
    rw [fanOf_succ (by omega), diagonals_succ h]
    obtain ⟨last, rfl⟩ : ∃ last, count = last + 1 := ⟨count - 1, by omega⟩
    rw [polygonEdges_succ] at ih
    rw [polygonEdges_succ, List.range_succ, Nat.add_sub_cancel]
    rw [List.perm_iff_count] at ih ⊢
    intro edge
    have hedge := ih edge
    simp only [List.flatMap_append, List.flatMap_singleton, List.map_append, List.map_singleton,
      List.count_append, List.count_cons, List.count_nil, Corners.edges,
      Prod.swap_prod_mk] at hedge ⊢
    omega

section Sums

variable {G : Type} [AddCommGroup G] {g : Point α → Point α → G}

/-- The sum around a triangle. -/
def Corners.around (g : Point α → Point α → G) (t : Corners α) : G :=
  g t.a t.b + g t.b t.c + g t.c t.a

theorem sum_edges (g : Point α → Point α → G) (t : Corners α) :
    (t.edges.map fun edge => g edge.1 edge.2).sum = t.around g := by
  simp only [Corners.edges, Corners.around, List.map_cons, List.map_nil, List.sum_cons,
    List.sum_nil, add_zero, add_assoc]

/-- Diagonals that are passed in both directions leave nothing. -/
theorem sum_both_ways (hg : ∀ p q, g p q = -g q p) (ds : List (Point α × Point α)) :
    ((ds.flatMap fun d => [d, d.swap]).map fun edge => g edge.1 edge.2).sum = 0 := by
  induction ds with
  | nil => rfl
  | cons d ds ih =>
    rw [List.flatMap_cons, List.map_append, List.sum_append, ih, add_zero]
    simp only [List.map_cons, List.map_nil, List.sum_cons, List.sum_nil, add_zero, Prod.fst_swap,
      Prod.snd_swap]
    rw [hg d.1 d.2, neg_add_cancel]

/-- What turns its sign with an edge has the same sum around the triangles of a fan
as around the polygon. -/
theorem sum_around_fanOf (hg : ∀ p q, g p q = -g q p) {count : Nat} (h : 3 ≤ count)
    (corner : Nat → Point α) :
    ((fanOf count corner).map (Corners.around g)).sum =
      ((polygonEdges count corner).map fun edge => g edge.1 edge.2).sum := by
  have hperm := ((edges_fanOf_perm h corner).map fun edge => g edge.1 edge.2).sum_eq
  rw [List.map_append, List.sum_append, sum_both_ways hg, add_zero] at hperm
  rw [← hperm]
  generalize fanOf count corner = ts
  induction ts with
  | nil => rfl
  | cons t ts ih =>
    rw [List.map_cons, List.sum_cons, ih, List.flatMap_cons, List.map_append, List.sum_append,
      sum_edges]

end Sums

/-- The exact value of a finite number; the others have none and count as zero. -/
def Binary64.toRat : Binary64 → ℚ
  | finite negative code => (if negative then -1 else 1) * ((units code : ℚ) / (unitsPerOne : ℚ))
  | _ => 0

namespace Point

def sub (p q : Point ℚ) : Point ℚ := ⟨p.x - q.x, p.y - q.y, p.z - q.z⟩

/-- The cross product, by components. -/
def cross (p q : Point ℚ) : Axis → ℚ
  | .x => p.y * q.z - p.z * q.y
  | .y => p.z * q.x - p.x * q.z
  | .z => p.x * q.y - p.y * q.x

theorem cross_swap (p q : Point ℚ) : p.cross q = -q.cross p := by
  funext axis
  cases axis <;> simp only [cross, Pi.neg_apply] <;> ring

end Point

/-- Half the cross product of two sides: its direction is the side that the triangle
faces, its length the area. -/
def Corners.vectorArea (t : Corners ℚ) : Axis → ℚ := (1 / 2 : ℚ) • (t.b.sub t.a).cross (t.c.sub t.a)

/-- The vector area that a closed polygon goes around, flat or not. -/
def polygonArea (count : Nat) (corner : Nat → Point ℚ) : Axis → ℚ :=
  (1 / 2 : ℚ) • ((polygonEdges count corner).map fun edge => edge.1.cross edge.2).sum

theorem vectorArea_eq (t : Corners ℚ) : t.vectorArea = (1 / 2 : ℚ) • t.around Point.cross := by
  funext axis
  cases axis <;>
  · simp only [Corners.vectorArea, Corners.around, Point.cross, Point.sub, Pi.smul_apply,
      Pi.add_apply, smul_eq_mul]
    ring

theorem sum_vectorArea {count : Nat} (h : 3 ≤ count) (corner : Nat → Point ℚ) :
    ((fanOf count corner).map Corners.vectorArea).sum = polygonArea count corner := by
  rw [polygonArea, ← sum_around_fanOf Point.cross_swap h]
  generalize fanOf count corner = ts
  induction ts with
  | nil => exact (smul_zero _).symm
  | cons t ts ih => simp only [List.map_cons, List.sum_cons, ih, vectorArea_eq, smul_add]

namespace Mesh

/-- Each index of the face is the number of a vertex, which is the corner at its place. -/
def Resolves (mesh : Mesh) (face : Face) (corner : Nat → Point Binary64) : Prop :=
  ∀ i (_ : i < face.indices.length),
    1 ≤ face.indices[i].toInt ∧ mesh.vertices[face.indices[i].toInt.toNat - 1]? = some (corner i)

instance (mesh : Mesh) (face : Face) (corner : Nat → Point Binary64) :
    Decidable (mesh.Resolves face corner) :=
  inferInstanceAs (Decidable (∀ i (_ : i < face.indices.length), _ ∧ _))

section Faces

variable {mesh : Mesh} {face : Face} {corner : Nat → Point Binary64}

theorem Resolves.inRange (h : mesh.Resolves face corner) :
    ∀ index ∈ face.indices, mesh.InRange index := by
  intro index hindex
  obtain ⟨i, hi, rfl⟩ := List.getElem_of_mem hindex
  obtain ⟨hpos, hvertex⟩ := h i hi
  obtain ⟨hlt, _⟩ := Array.getElem?_eq_some_iff.mp hvertex
  exact ⟨hpos, by omega⟩

theorem Resolves.cornerVertex? (h : mesh.Resolves face corner) {i : Nat}
    (hi : i < face.indices.length) :
    mesh.cornerVertex? face i = some (corner i) := by
  rw [Mesh.cornerVertex?, List.getElem?_eq_getElem hi, Option.bind_some]
  exact (h i hi).2

theorem placeVertices_of_resolves (h : mesh.Resolves face corner) {i : Nat}
    (hi : i + 2 < face.indices.length) :
    mesh.placeVertices (face, i + 1) = [corner 0, corner (i + 1), corner (i + 2)] := by
  have h0 := h.cornerVertex? (i := 0) (by omega)
  have h1 := h.cornerVertex? (i := i + 1) (by omega)
  have h2 := h.cornerVertex? hi
  simp only [placeVertices, List.filterMap_cons, h0, h1, h2, List.filterMap_nil]

theorem exists_triangulateFace (h : ∀ index ∈ face.indices, mesh.InRange index) :
    ∃ triangles, mesh.triangulateFace face = .ok triangles := by
  have hnone : face.indices.find? (fun index => !decide (mesh.InRange index)) = none := by
    simpa using h
  rw [← failure?_eq_none_iff, failure?_triangulateFace, hnone]
  rfl

end Faces

end Mesh

theorem Triangle.injective_toList :
    Function.Injective fun t : Triangle α => (t.corners.toList, t.tag) := by
  rintro ⟨⟨a, b, c⟩, tag⟩ ⟨⟨a', b', c'⟩, tag'⟩ h
  simpa [Corners.toList] using h

namespace Mesh

variable {mesh : Mesh} {face : Face} {corner : Nat → Point Binary64}

/-- A face whose indices are numbers of vertices is cut into the fan of its corners. -/
theorem triangulateFace_of_resolves (h : mesh.Resolves face corner) :
    mesh.triangulateFace face =
      .ok ((fanOf face.indices.length corner).map fun corners => ⟨corners, face.tag⟩) := by
  obtain ⟨triangles, htriangles⟩ := exists_triangulateFace h.inRange
  rw [htriangles]
  congr 1
  apply List.map_injective_iff.mpr Triangle.injective_toList
  rw [map_triangulateFace htriangles, fanOf, List.map_map, List.map_map]
  apply List.map_congr_left
  intro i hi
  have hi := List.mem_range.mp hi
  rw [placeVertices_of_resolves h (by omega)]
  rfl

/-- A face whose indices are numbers of vertices is always cut, into no triangle if it has fewer
than three corners. Else the triangles have each edge of the polygon once and in its direction, and
each diagonal in both. So a sum along edges that turns its sign with them is that of the polygon,
and so is the vector area, with the coordinates taken exactly. -/
theorem triangulateFace_boundary (h : mesh.Resolves face corner) :
    ∃ triangles, mesh.triangulateFace face = .ok triangles ∧
      (face.indices.length < 3 → triangles = []) ∧
      (3 ≤ face.indices.length →
        (triangles.flatMap fun t => t.corners.edges).Perm
          (polygonEdges face.indices.length corner ++
            (diagonals face.indices.length corner).flatMap fun d => [d, d.swap]) ∧
        (∀ (G : Type) [AddCommGroup G] (g : Point Binary64 → Point Binary64 → G),
          (∀ p q, g p q = -g q p) →
          (triangles.map fun t =>
              g t.corners.a t.corners.b + g t.corners.b t.corners.c +
                g t.corners.c t.corners.a).sum =
            ((List.range face.indices.length).map fun i =>
              g (corner i) (corner ((i + 1) % face.indices.length))).sum) ∧
        (triangles.map fun t => (t.corners.map (Point.map Binary64.toRat)).vectorArea).sum =
          polygonArea face.indices.length fun i => (corner i).map Binary64.toRat) := by
  refine ⟨_, triangulateFace_of_resolves h, fun hfew => ?_, fun h3 => ⟨?edges, ?sums, ?area⟩⟩
  · have hnone : face.indices.length - 2 = 0 := by omega
    rw [fanOf, hnone]
    rfl
  case edges =>
    rw [List.flatMap_map]
    exact edges_fanOf_perm h3 corner
  case sums =>
    intro G _ g hg
    have hsum := sum_around_fanOf hg h3 corner
    rw [polygonEdges, List.map_map] at hsum
    rw [List.map_map]
    exact hsum
  case area =>
    have hsum := sum_vectorArea h3 fun i => (corner i).map Binary64.toRat
    rw [fanOf, List.map_map] at hsum
    rw [fanOf, List.map_map, List.map_map]
    exact hsum

/-- A pentagon that goes to a vertex and back again: the second of its three
triangles faces the other way. -/
theorem triangulateFace_boundary_turning :
    let zero := Binary64.zero false
    let one : Binary64 := .finite false ⟨0x3FF0000000000000, by decide⟩
    let mesh : Mesh :=
      ⟨⟨""⟩, #[⟨zero, zero, zero⟩, ⟨one, zero, zero⟩, ⟨one, one, zero⟩, ⟨zero, one, zero⟩],
        #[], 0, 0⟩
    let face : Face := ⟨[1, 2, 3, 2, 4], none, 1⟩
    let corner := fun i => (mesh.cornerVertex? face i).getD ⟨zero, zero, zero⟩
    mesh.Resolves face corner ∧ ∃ triangles, mesh.triangulateFace face = .ok triangles ∧
      triangles.map (fun t => (t.corners.map (Point.map Binary64.toRat)).vectorArea .z) =
        [1 / 2, -1 / 2, 1 / 2] ∧
      (triangles.map fun t => (t.corners.map (Point.map Binary64.toRat)).vectorArea).sum .z =
        1 / 2 := by
  intro zero one mesh face corner
  have hresolves : mesh.Resolves face corner := by decide +kernel
  have harea : polygonArea 5 (fun i => (corner i).map Binary64.toRat) .z = 1 / 2 := by
    decide +kernel
  obtain ⟨triangles, htriangles, _, hboundary⟩ := triangulateFace_boundary hresolves
  have hsum := (hboundary (by decide)).2.2
  refine ⟨hresolves, triangles, htriangles, ?_, ?_⟩
  · rw [triangulateFace_of_resolves hresolves] at htriangles
    cases htriangles
    decide +kernel
  · rw [hsum]
    exact harea

end Mesh

end CollisionMesh
