import CollisionMesh.Grid
import CollisionMesh.Proofs.WholeParts

/-!
# Grid coordinates of exact values

On its way to the grid a number is cut, held to 64 bits and held to the grid. Only the exact value
and the limits of the grid show in what comes out: the value is cut toward zero and held to these
limits, and it is reported just if it lies one or more beyond them. So a count that runs along with
points counts exact values, and what is on the grid passes again as it is.
-/

namespace CollisionMesh

set_option autoImplicit false

open Binary64 (holdToInt64)

/-- A whole number held to the limits of the grid, and whether it had to be. -/
def holdToGrid (n : Int) : Int × Bool :=
  let held := max (-gridLimit) (min gridLimit n)
  (held, held != n)

/-- The wider limits are behind the narrower ones, for the number and for the report. -/
theorem holdToGrid_holdToInt64 (n : Int) : holdToGrid (holdToInt64 n) = holdToGrid n := by
  unfold holdToGrid holdToInt64 gridLimit Binary64.int64Limit
  refine Prod.ext ?_ ?_
  · simp only
    omega
  · rw [Bool.eq_iff_iff, bne_iff_ne, bne_iff_ne]
    omega

theorem snd_holdToGrid_iff (n : Int) : (holdToGrid n).2 = true ↔ gridLimit < |n| := by
  unfold holdToGrid gridLimit
  rw [bne_iff_ne, lt_abs]
  omega

theorem holdToGrid_of_mem_range {n : Int} (h : -gridLimit ≤ n ∧ n ≤ gridLimit) :
    holdToGrid n = (n, false) := by
  have hheld : max (-gridLimit) (min gridLimit n) = n := by omega
  simp only [holdToGrid, hheld, bne_self_eq_false]

theorem holdToGrid_mono {m n : Int} (h : m ≤ n) : (holdToGrid m).1 ≤ (holdToGrid n).1 :=
  max_le_max_left _ (min_le_min_left _ h)

/-- What is cut off does not bring a value back onto the grid. -/
theorem gridLimit_lt_abs_towardZero_iff (q : ℚ) : gridLimit < |towardZero q| ↔ 32768 ≤ |q| := by
  rw [abs_towardZero, ← Int.add_one_le_iff, Int.le_floor]
  norm_num [gridLimit]

namespace Binary64

theorem toGrid_finite (negative : Bool) (code : Fin magnitudeCount) :
    (finite negative code).toGrid = holdToGrid (towardZero (finite negative code).toRat) := by
  rw [← holdToGrid_holdToInt64, ← wholePart_finite]
  rfl

/-- Whether a number lies beyond the grid: by its exact value if it is finite, and
always if it is infinite. -/
def offGrid : Binary64 → Bool
  | nan => false
  | infinite _ => true
  | finite negative code => decide (32768 ≤ |(finite negative code).toRat|)

theorem toGrid_snd_eq_offGrid (x : Binary64) : x.toGrid.2 = x.offGrid := by
  cases x with
  | nan => decide
  | infinite negative => cases negative <;> decide
  | finite negative code =>
    rw [toGrid_finite, Bool.eq_iff_iff, snd_holdToGrid_iff, gridLimit_lt_abs_towardZero_iff,
      offGrid, decide_eq_true_iff]

/-- A coordinate of the grid is a number with that coordinate. -/
theorem toGrid_ofInt {n : Int} (h : -gridLimit ≤ n ∧ n ≤ gridLimit) :
    (ofInt n).toGrid = (n, false) := by
  have hbits : n.natAbs < 2 ^ 53 := by
    unfold gridLimit at h
    omega
  obtain ⟨code, hfinite, _⟩ := exists_ofInt_eq hbits
  have hvalue := toRat_ofInt hbits
  rw [hfinite] at hvalue ⊢
  rw [toGrid_finite, hvalue, towardZero_intCast, holdToGrid_of_mem_range h]

theorem toGrid_mono {x y : Binary64} (hx : x.isFinite = true) (hy : y.isFinite = true)
    (h : x.toRat ≤ y.toRat) :
    x.toGrid.1 ≤ y.toGrid.1 := by
  cases x with
  | finite s a =>
    cases y with
    | finite t b =>
      rw [toGrid_finite, toGrid_finite]
      exact holdToGrid_mono (towardZero_mono h)
    | _ => cases hy
  | _ => cases hx

end Binary64

section Counting

variable {α β : Type}

/-- The computation yields a value and counts on by a number, wherever the count stands. -/
def CountsOn (counting : StateM Nat α) (value : α) (number : Nat) : Prop :=
  ∀ count, counting.run count = (value, count + number)

theorem CountsOn.pure (value : α) : CountsOn (pure value) value 0 := fun _ => rfl

theorem CountsOn.bind {counting : StateM Nat α} {next : α → StateM Nat β} {a : α} {b : β}
    {m n : Nat} (h : CountsOn counting a m) (hnext : CountsOn (next a) b n) :
    CountsOn (counting >>= next) b (m + n) := by
  intro count
  have hrun : (counting >>= next).run count = (next a).run (count + m) := by
    rw [StateT.run_bind, h count]
    rfl
  rw [hrun, hnext, Nat.add_assoc]

/-- Three parts are counted in the order in which they are put together. -/
theorem CountsOn.three {first second third : StateM Nat α} {a b c : α} {l m n : Nat}
    (ha : CountsOn first a l) (hb : CountsOn second b m) (hc : CountsOn third c n)
    (make : α → α → α → β) :
    CountsOn (do return make (← first) (← second) (← third)) (make a b c) (l + (m + n)) :=
  ha.bind (hb.bind (hc.bind (n := 0) (.pure (make a b c))))

/-- Puts a component on the grid, and counts it on if it had to be held. -/
def Binary64.toGridCounting (x : Binary64) : StateM Nat Int := do
  if x.toGrid.2 then modify (· + 1)
  return x.toGrid.1

def Point.toGridCounting (p : Point Binary64) : StateM Nat (Point Int) := do
  return ⟨← p.x.toGridCounting, ← p.y.toGridCounting, ← p.z.toGridCounting⟩

def Corners.toGridCounting (t : Corners Binary64) : StateM Nat (Corners Int) := do
  return ⟨← t.a.toGridCounting, ← t.b.toGridCounting, ← t.c.toGridCounting⟩

theorem Binary64.countsOn_toGridCounting (x : Binary64) :
    CountsOn x.toGridCounting x.toGrid.1 ([x].countP offGrid) := by
  intro count
  rw [List.countP_singleton, ← toGrid_snd_eq_offGrid, toGridCounting]
  cases x.toGrid.2 <;> rfl

theorem Point.countsOn_toGridCounting (p : Point Binary64) :
    CountsOn p.toGridCounting p.toGrid (p.toList.countP Binary64.offGrid) := by
  have hlist : p.toList = [p.x] ++ ([p.y] ++ [p.z]) := rfl
  rw [hlist, List.countP_append, List.countP_append]
  exact p.x.countsOn_toGridCounting.three p.y.countsOn_toGridCounting p.z.countsOn_toGridCounting
    Point.mk

theorem Corners.countsOn_toGridCounting (t : Corners Binary64) :
    CountsOn t.toGridCounting t.toGrid (t.components.countP Binary64.offGrid) := by
  have hlist : t.components = t.a.toList ++ (t.b.toList ++ t.c.toList) := rfl
  rw [hlist, List.countP_append, List.countP_append]
  exact t.a.countsOn_toGridCounting.three t.b.countsOn_toGridCounting t.c.countsOn_toGridCounting
    Corners.mk

theorem clampedCount_eq_countP (ts : List (Corners Binary64)) :
    clampedCount ts = (ts.flatMap Corners.components).countP Binary64.offGrid := by
  simp only [clampedCount, Binary64.toGrid_snd_eq_offGrid]

/-- The count that runs along with triangles ends where the triangles are counted together. -/
theorem countsOn_mapM_toGridCounting (ts : List (Corners Binary64)) :
    CountsOn (ts.mapM Corners.toGridCounting) (ts.map Corners.toGrid) (clampedCount ts) := by
  rw [clampedCount_eq_countP]
  induction ts with
  | nil => exact .pure []
  | cons t ts ih =>
    rw [List.mapM_cons, List.flatMap_cons, List.countP_append]
    exact t.countsOn_toGridCounting.bind
      (ih.bind (n := 0) (.pure (t.toGrid :: ts.map Corners.toGrid)))

end Counting

namespace Point

/-- The point of binary64 numbers that a grid point is. -/
def ofGrid (p : Point Int) : Point Binary64 := p.map Binary64.ofInt

theorem toGrid_ofGrid_toGrid (p : Point Binary64) : p.toGrid.ofGrid.toGrid = p.toGrid := by
  simp only [ofGrid, toGrid, map, Binary64.toGrid_ofInt (toGrid_mem_range _)]

theorem countP_offGrid_ofGrid (p : Point Binary64) :
    p.toGrid.ofGrid.toList.countP Binary64.offGrid = 0 := by
  rw [List.countP_eq_zero]
  intro x hx
  rw [ofGrid, toGrid, toList_map, toList_map, List.map_map] at hx
  obtain ⟨y, _, rfl⟩ := List.mem_map.mp hx
  rw [← Binary64.toGrid_snd_eq_offGrid, Function.comp_apply,
    Binary64.toGrid_ofInt (toGrid_mem_range y)]
  exact Bool.false_ne_true

end Point

/-- What comes of a number on the grid, by its exact value. A finite one is cut toward zero and held
to the limits of the grid, whatever it is held to on the way, and it is counted just if its value
lies one or more beyond them; the coordinates keep the order of the values. So the count that runs
along with points and triangles is one of exact values, and the coordinates of a point pass again as
they are and uncounted. -/
theorem toGrid_exact :
    (∀ negative code,
      let x := Binary64.finite negative code
      let whole := towardZero x.toRat
      x.toRat = (if negative then -1 else 1) *
          Binary64.fieldsMagnitude (code / binadeSize) (code % binadeSize) ∧
        x.toGrid = (max (-32767) (min 32767 whole), decide (32768 ≤ |x.toRat|)) ∧
        x.wholePart = holdToInt64 whole ∧ holdToGrid x.wholePart = holdToGrid whole ∧
        x.toGrid = holdToGrid whole) ∧
    ((Binary64.infinite false).toGrid = (32767, true) ∧
      (Binary64.infinite true).toGrid = (-32767, true) ∧
      Binary64.nan.toGrid = (0, false)) ∧
    (∀ x y : Binary64, x.isFinite = true → y.isFinite = true → x.toRat ≤ y.toRat →
      x.toGrid.1 ≤ y.toGrid.1) ∧
    (∀ (p : Point Binary64) (count : Nat),
      p.toGridCounting.run count = (p.toGrid, count + p.toList.countP Binary64.offGrid) ∧
        p.toGrid.ofGrid.toGridCounting.run count = (p.toGrid, count)) ∧
    ∀ (ts : List (Corners Binary64)) (count : Nat),
      (ts.mapM Corners.toGridCounting).run count =
        (ts.map Corners.toGrid, count + clampedCount ts) ∧
        clampedCount ts = (ts.flatMap Corners.components).countP Binary64.offGrid := by
  refine ⟨fun negative code => ?finite, by decide, fun x y => Binary64.toGrid_mono,
    fun p count => ⟨?point, ?again⟩,
    fun ts count => ⟨countsOn_mapM_toGridCounting ts count, clampedCount_eq_countP ts⟩⟩
  case finite =>
    have hgrid := Binary64.toGrid_finite negative code
    refine ⟨Binary64.toRat_finite negative code, Prod.ext ?_ ?_,
      Binary64.wholePart_finite negative code, ?_, hgrid⟩
    · rw [hgrid]
      rfl
    · exact Binary64.toGrid_snd_eq_offGrid _
    · exact hgrid
  case point => exact p.countsOn_toGridCounting count
  case again =>
    have hcounts := p.toGrid.ofGrid.countsOn_toGridCounting count
    rwa [p.toGrid_ofGrid_toGrid, p.countP_offGrid_ofGrid, Nat.add_zero] at hcounts

/-- The last number before 32768, and the first whole number that 64 bits
with a sign do not hold. -/
theorem toGrid_exact_edge :
    let below := Binary64.finite false ⟨0x40DFFFFFFFFFFFFF, by decide⟩
    let far := Binary64.finite false ⟨0x43E0000000000000, by decide⟩
    below.isFinite = true ∧ far.isFinite = true ∧ below.toRat ≤ far.toRat ∧ far.toRat = 2 ^ 63 ∧
      below.toGrid = (32767, false) ∧ below.toGrid.1 ≤ far.toGrid.1 ∧
      (Point.mk below far .nan).toGridCounting.run 7 = (⟨32767, 32767, 0⟩, 8) := by
  intro below far
  have hvalues : below.toRat ≤ far.toRat := by decide +kernel
  obtain ⟨_, _, hmono, hpoint, _⟩ := toGrid_exact
  refine ⟨rfl, rfl, hvalues, by decide +kernel, by decide +kernel,
    hmono below far rfl rfl hvalues, ?_⟩
  rw [(hpoint _ 7).1]
  exact Prod.ext (by decide +kernel) (by decide +kernel)

end CollisionMesh
