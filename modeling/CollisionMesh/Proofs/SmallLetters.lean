import CollisionMesh.Proofs.Identifiers
import CollisionMesh.Text.LowerCase

/-!
# Texts whose lower case is a name of small letters

Two characters outside ASCII have small ASCII letters in their lower case: the Kelvin sign, which
becomes a k, and a capital I with a dot, which becomes an i and a combining dot. So a name of
small letters without k is the lower case of those texts only that have the same letters in
ASCII, small or capital.
-/

namespace CollisionMesh.Text

set_option autoImplicit false

open Identifier

theorem toLower_of_not_ascii {c : Char} (h : 0x80 ≤ c.toNat) : c.toLower = c := by
  apply toLower_of_not_isUpper
  rw [Bool.eq_false_iff, ne_eq, isUpper_iff]
  omega

/-- Only ASCII letters become small letters one by one. -/
theorem ascii_of_isLower_toLower {c : Char} (h : c.toLower.isLower = true) : c.toNat < 0x80 := by
  by_contra hlarge
  rw [toLower_of_not_ascii (Nat.not_lt.mp hlarge), isLower_iff] at h
  omega

theorem toNat_ofNat_of_isLower {code : Nat} (h : (Char.ofNat code).isLower = true) :
    (Char.ofNat code).toNat = code := by
  by_cases hvalid : code.isValidChar
  · rw [Char.ofNat, dif_pos hvalid]
    rfl
  · rw [Char.ofNat, dif_neg hvalid] at h
    exact absurd h (by decide)

theorem mem_of_form? {code result : Nat}
    (h : (lowerRows.findSome? fun row => row.form? code) = some result) :
    ∃ row ∈ lowerRows, row.first ≤ code ∧ code ≤ row.last ∧
      result = row.lower + (code - row.first) := by
  obtain ⟨row, hrow, hform⟩ := List.exists_of_findSome?_eq_some h
  unfold LowerRow.form? at hform
  split at hform
  · rename_i hcode
    exact ⟨row, hrow, hcode.1, hcode.2.1, (Option.some.inj hform).symm⟩
  · cases hform

theorem lowerRows_outside_ascii :
    ∀ row ∈ lowerRows, 0x80 ≤ row.lower ∨ (row.first = row.last ∧ row.lower = 'k'.toNat) := by
  decide +kernel

/-- The Kelvin sign is the only character outside ASCII with a lower case of small letters. -/
theorem mem_lowerChar_of_isLower {c : Char} (hc : 0x80 ≤ c.toNat)
    (h : ∀ d ∈ lowerChar c, d.isLower = true) :
    'k' ∈ lowerChar c := by
  unfold lowerChar at h ⊢
  rw [if_neg (Nat.not_lt.mpr hc)] at h ⊢
  by_cases hdotted : c = '\u0130'
  · rw [if_pos hdotted] at h
    exact absurd (h '\u0307' (by decide)) (by decide)
  rw [if_neg hdotted] at h ⊢
  cases hform : lowerRows.findSome? fun row => row.form? c.toNat with
  | none =>
    rw [hform] at h
    have hlower := (isLower_iff c).mp (h c (List.mem_singleton.mpr rfl))
    omega
  | some code =>
    rw [hform] at h
    have hlower := h (Char.ofNat code) (List.mem_singleton.mpr rfl)
    have hcode := toNat_ofNat_of_isLower hlower
    rw [isLower_iff, hcode] at hlower
    obtain ⟨row, hrow, hfirst, hlast, rfl⟩ := mem_of_form? hform
    rcases lowerRows_outside_ascii row hrow with hlarge | ⟨hone, hk⟩
    · omega
    · have hsame : row.lower + (c.toNat - row.first) = 'k'.toNat := by omega
      rw [hsame]
      exact List.mem_singleton.mpr rfl

/-- A name of small letters without k is the lower case of its spellings in
ASCII, and of nothing else. -/
theorem lower_eq_iff {name : List Char} (hname : ∀ c ∈ name, c.isLower = true ∧ c ≠ 'k')
    (cs : List Char) :
    lower cs = name ↔ cs.map Char.toLower = name := by
  induction cs generalizing name with
  | nil => rfl
  | cons c cs ih =>
    rw [lower_cons, List.map_cons]
    by_cases hc : c.toNat < 0x80
    · rw [lowerChar_of_ascii hc, List.singleton_append]
      cases name with
      | nil => simp
      | cons d name =>
        rw [List.cons_eq_cons, List.cons_eq_cons, ih (List.forall_mem_cons.mp hname).2]
    · refine iff_of_false ?_ ?_
      · rintro rfl
        have hk := mem_lowerChar_of_isLower (Nat.not_lt.mp hc) fun d hd =>
          (hname d (List.mem_append_left _ hd)).1
        exact (hname 'k' (List.mem_append_left _ hk)).2 rfl
      · rintro rfl
        exact hc (ascii_of_isLower_toLower (hname _ List.mem_cons_self).1)

/-- The characters of such a spelling are in ASCII. -/
theorem ascii_of_map_toLower {name cs : List Char} (hname : ∀ c ∈ name, c.isLower = true)
    (h : cs.map Char.toLower = name) : ∀ c ∈ cs, c.toNat < 0x80 := by
  intro c hc
  apply ascii_of_isLower_toLower
  apply hname
  rw [← h]
  exact List.mem_map_of_mem hc

end CollisionMesh.Text
