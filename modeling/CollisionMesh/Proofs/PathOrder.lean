import CollisionMesh.Path
import Mathlib.Data.List.Lex
import Mathlib.Data.List.Sort

/-!
# The order of paths

Paths are ordered as the lists of their components are, not as texts are: `m/a/b` comes before
`m/a-b`, since `a` is the start of `a-b`. Paths on a level in this order have the same components,
and lists without such paths are sorted in one way.
-/

namespace CollisionMesh

set_option autoImplicit false

/-- Lists of keys are compared as the lists that they are keys of, entry by entry. -/
theorem compareLex_map_eq_lt_iff {α β : Type} {cmp : β → β → Ordering} [Std.LawfulEqCmp cmp]
    {key : α → β} (hkey : Function.Injective key) (xs ys : List α) :
    List.compareLex cmp (xs.map key) (ys.map key) = .lt ↔
      List.Lex (fun x y => cmp (key x) (key y) = .lt) xs ys := by
  induction xs generalizing ys with
  | nil =>
    cases ys with
    | nil => exact iff_of_false nofun List.not_lex_nil
    | cons y ys => exact iff_of_true rfl .nil
  | cons x xs ih =>
    cases ys with
    | nil => exact iff_of_false nofun List.not_lex_nil
    | cons y ys =>
      rw [List.map_cons, List.map_cons, List.compareLex_cons_cons, Ordering.then_eq_lt, ih,
        List.cons_lex_cons_iff, Std.LawfulEqCmp.compare_eq_iff_eq, hkey.eq_iff]

namespace Component

/-- The root comes first, then a dot, then two dots, then names. -/
def rank : Component → Nat
  | root => 0
  | current => 1
  | parent => 2
  | name _ => 3

/-- The order of components: names among themselves as texts, and others by their kinds. -/
def Before : Component → Component → Prop
  | name s, name t => s < t
  | a, b => a.rank < b.rank

theorem key_injective : Function.Injective key := by
  intro a b h
  cases a <;> cases b <;> simp [key] at h ⊢
  have hchars := List.map_injective_iff.mpr (fun _ _ => Char.toNat_inj.mp) h
  exact String.toList_inj.mp hchars

theorem compare_key_eq_lt_iff (a b : Component) : compare a.key b.key = .lt ↔ a.Before b := by
  rw [List.compare_eq_compareLex]
  cases a with
  | name s =>
    cases b with
    | name t =>
      rw [key, key, List.compareLex_cons_cons, Ordering.then_eq_lt,
        compareLex_map_eq_lt_iff fun _ _ => Char.toNat_inj.mp]
      simp only [Nat.compare_eq_lt, Nat.lt_irrefl, Nat.compare_eq_eq, false_or, true_and]
      rfl
    | _ =>
      simp [key, Before, rank, List.compareLex_cons_cons, Ordering.then_eq_lt, Nat.compare_eq_lt]
  | _ =>
    cases b <;>
      simp [key, Before, rank, List.compareLex_cons_cons, Ordering.then_eq_lt, Nat.compare_eq_lt,
      List.compareLex_nil_nil]

end Component

namespace Path

/-- Paths that stand on a level in the order of paths have the same components. -/
theorem same_of_le {p q : Path} (h : p.le q = true) (h' : q.le p = true) : p.same q = true := by
  have hkey : p.key = q.key := Std.LawfulEqCmp.eq_of_compare (Std.OrientedCmp.isLE_antisymm h h')
  have hcomponents := Component.key_injective.list_map hkey
  rw [same, hcomponents]
  exact beq_self_eq_true _

theorem pairwise_mergeSort (paths : List Path) :
    (paths.mergeSort le).Pairwise fun p q => p.le q = true := by
  refine List.pairwise_mergeSort (fun p q r => Std.TransCmp.isLE_trans) (fun p q => ?_) paths
  have hswap : compare q.key p.key = (compare p.key q.key).swap := Std.OrientedCmp.eq_swap
  rw [le, le, hswap]
  cases compare p.key q.key <;> rfl

/-- Paths that the order tells apart are sorted in one way only. -/
theorem mergeSort_eq_of_perm {paths others : List Path} (h : paths.Perm others)
    (hsame : ∀ p ∈ paths, ∀ q ∈ others, p.same q = true → p = q) :
    paths.mergeSort le = others.mergeSort le := by
  -- the order has ties, such as `a/b` and `a//b`: two sorted lists agree where none occurs
  refine List.Perm.eq_of_pairwise (fun p q hp hq hle hle' => ?_) (pairwise_mergeSort paths)
    (pairwise_mergeSort others)
    ((List.mergeSort_perm paths le).trans (h.trans (List.mergeSort_perm others le).symm))
  exact hsame p (List.mem_mergeSort.mp hp) q (List.mem_mergeSort.mp hq) (same_of_le hle hle')

variable {p q : Path}

/-- The order of paths, component by component. -/
def Precedes (p q : Path) : Prop := List.Lex Component.Before p.components q.components

theorem compare_key_eq_lt_iff (p q : Path) : compare p.key q.key = .lt ↔ p.Precedes q := by
  rw [List.compare_eq_compareLex, key, key, compareLex_map_eq_lt_iff Component.key_injective]
  simp only [Component.compare_key_eq_lt_iff]
  rfl

theorem precedes_of_le (hle : p.le q = true) (hne : ¬p.same q = true) : p.Precedes q := by
  rw [← compare_key_eq_lt_iff]
  cases hcompare : compare p.key q.key with
  | lt => rfl
  | eq =>
    have hback : q.le p = true := by
      rw [le, Std.LawfulEqCmp.eq_of_compare hcompare, Std.ReflOrd.compare_self]
      rfl
    exact absurd (same_of_le hle hback) hne
  | gt =>
    rw [le, hcompare] at hle
    cases hle

theorem Precedes.ne (h : p.Precedes q) : p ≠ q := by
  rintro rfl
  rw [← compare_key_eq_lt_iff, Std.ReflOrd.compare_self] at h
  cases h

theorem Precedes.not_precedes (h : p.Precedes q) : ¬q.Precedes p := by
  intro hback
  rw [← compare_key_eq_lt_iff] at h hback
  have hswap : compare q.key p.key = (compare p.key q.key).swap := Std.OrientedCmp.eq_swap
  rw [hswap, h] at hback
  cases hback

/-- A list in the order of paths is told by what is in it. -/
theorem eq_of_pairwise_precedes {paths others : List Path} (hpaths : paths.Pairwise Precedes)
    (hothers : others.Pairwise Precedes) (h : ∀ p, p ∈ paths ↔ p ∈ others) : paths = others := by
  have hperm : paths.Perm others :=
    (List.perm_ext_iff_of_nodup (hpaths.imp Precedes.ne) (hothers.imp Precedes.ne)).mpr h
  refine hperm.eq_of_pairwise (fun p q _ _ hpq hqp => ?_) hpaths hothers
  exact absurd hqp hpq.not_precedes

end Path

end CollisionMesh
