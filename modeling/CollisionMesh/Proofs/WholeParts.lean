import CollisionMesh.Proofs.ExactDecimals
import CollisionMesh.Proofs.FanBoundary
import Mathlib.Data.Rat.Floor
import Mathlib.Tactic.Linarith

/-!
# Whole parts of exact values

The exact value of a finite number is the one that the interchange format gives to its fields, and
its whole part is that value cut toward zero and held to 64 bits. A whole number of up to 53 bits is
the exact value of the number that is made of it.
-/

namespace CollisionMesh

set_option autoImplicit false

/-- A rational number without its fraction. -/
def towardZero (q : ℚ) : ℤ := if 0 ≤ q then ⌊q⌋ else ⌈q⌉

theorem towardZero_of_nonneg {q : ℚ} (h : 0 ≤ q) : towardZero q = ⌊q⌋ := if_pos h

theorem towardZero_of_neg {q : ℚ} (h : q < 0) : towardZero q = ⌈q⌉ := if_neg (not_le.mpr h)

theorem towardZero_intCast (n : ℤ) : towardZero n = n := by
  rcases le_or_gt 0 (n : ℚ) with h | h
  · rw [towardZero_of_nonneg h, Int.floor_intCast]
  · rw [towardZero_of_neg h, Int.ceil_intCast]

theorem towardZero_neg (q : ℚ) : towardZero (-q) = -towardZero q := by
  rcases lt_trichotomy q 0 with h | rfl | h
  · rw [towardZero_of_nonneg (by linarith), towardZero_of_neg h, Int.floor_neg]
  · rw [neg_zero]
    rfl
  · rw [towardZero_of_neg (by linarith), towardZero_of_nonneg h.le, Int.ceil_neg]

theorem abs_towardZero (q : ℚ) : |towardZero q| = ⌊|q|⌋ := by
  rcases le_or_gt 0 q with h | h
  · rw [towardZero_of_nonneg h, abs_of_nonneg h, abs_of_nonneg (Int.floor_nonneg.mpr h)]
  · have hneg : 0 ≤ -q := by linarith
    rw [← abs_neg, ← towardZero_neg, towardZero_of_nonneg hneg, abs_of_neg h,
      abs_of_nonneg (Int.floor_nonneg.mpr hneg)]

theorem towardZero_mono {q r : ℚ} (h : q ≤ r) : towardZero q ≤ towardZero r := by
  rcases le_or_gt 0 q with hq | hq
  · rw [towardZero_of_nonneg hq, towardZero_of_nonneg (hq.trans h)]
    exact Int.floor_le_floor h
  rcases le_or_gt 0 r with hr | hr
  · rw [towardZero_of_neg hq, towardZero_of_nonneg hr]
    exact (Int.ceil_le.mpr (by simpa using hq.le)).trans (Int.floor_nonneg.mpr hr)
  · rw [towardZero_of_neg hq, towardZero_of_neg hr]
    exact Int.ceil_le_ceil h

namespace Binary64

theorem unitsPerOne_eq {low high : Nat} (h : low + high = 1074) :
    unitsPerOne = 2 ^ low * 2 ^ high := by
  rw [unitsPerOne, ← h, Nat.one_shiftLeft, Nat.pow_add]

theorem unitsPerOne_ne_zero : (unitsPerOne : ℚ) ≠ 0 := Nat.cast_ne_zero.mpr (by decide +kernel)

/-- The units of a code by its two fields; the first two binades have the same spacing. -/
theorem units_eq (code : Nat) :
    units code =
      if code / binadeSize = 0 then code % binadeSize
      else (binadeSize + code % binadeSize) * 2 ^ (code / binadeSize - 1) := by
  have hcode := Nat.div_add_mod code binadeSize
  unfold units
  by_cases hsmall : code < 2 * binadeSize
  · have hbinade : code / binadeSize < 2 :=
      Nat.div_lt_of_lt_mul (Nat.mul_comm 2 binadeSize ▸ hsmall)
    rw [if_pos hsmall]
    split
    · rename_i hzero
      rw [hzero, Nat.mul_zero, Nat.zero_add] at hcode
      exact hcode.symm
    · rename_i hpos
      have hone : code / binadeSize = 1 :=
        Nat.le_antisymm (Nat.le_of_lt_succ hbinade) (Nat.one_le_iff_ne_zero.mpr hpos)
      rw [hone, Nat.mul_one] at hcode
      rw [hone, Nat.sub_self, Nat.pow_zero, Nat.mul_one, hcode]
  · have hbinade : 2 ≤ code / binadeSize :=
      (Nat.le_div_iff_mul_le (by decide)).mpr (Nat.not_lt.mp hsmall)
    rw [if_neg hsmall, if_neg (by omega), Nat.shiftLeft_eq]

/-- The magnitude with these fields of the interchange format: an exponent, and
a fraction of 52 bits. -/
def fieldsMagnitude (exponent fraction : Nat) : ℚ :=
  if exponent = 0 then fraction / 2 ^ 52 * 2 ^ (-1022 : ℤ)
  else (1 + fraction / 2 ^ 52) * 2 ^ ((exponent : ℤ) - 1023)

theorem units_div_unitsPerOne (code : Nat) :
    (units code : ℚ) / (unitsPerOne : ℚ) =
      fieldsMagnitude (code / binadeSize) (code % binadeSize) := by
  have htwo : (2 : ℚ) ≠ 0 := two_ne_zero
  have hone : (unitsPerOne : ℚ) = 2 ^ 52 * 2 ^ (1022 : ℤ) := by
    rw [unitsPerOne_eq (show 52 + 1022 = 1074 from rfl), Nat.cast_mul, Nat.cast_pow, Nat.cast_pow,
      Nat.cast_ofNat, zpow_ofNat]
  have hsize : (binadeSize : ℚ) = 2 ^ 52 := by norm_num
  have hfrac : (2 : ℚ) ^ 52 ≠ 0 := pow_ne_zero _ htwo
  rw [units_eq, fieldsMagnitude, hone, div_mul_eq_div_div]
  split
  · rw [zpow_neg, ← div_eq_mul_inv]
  · rename_i hexponent
    have hscale : (2 : ℚ) ^ (((code / binadeSize : ℕ) : ℤ) - 1023) =
        2 ^ (code / binadeSize - 1) / 2 ^ (1022 : ℤ) := by
      rw [← zpow_natCast, ← zpow_sub₀ htwo]
      congr 1
      have hpos := Nat.one_le_iff_ne_zero.mpr hexponent
      push_cast [hpos]
      ring
    rw [hscale, Nat.cast_mul, Nat.cast_add, Nat.cast_pow, hsize, Nat.cast_ofNat, ← mul_div_assoc,
      mul_div_right_comm, add_div, div_self hfrac]

theorem toRat_finite (negative : Bool) (code : Fin magnitudeCount) :
    (finite negative code).toRat =
      (if negative then -1 else 1) * fieldsMagnitude (code / binadeSize) (code % binadeSize) := by
  rw [toRat, units_div_unitsPerOne]

/-- The whole part is cut from the exact value, and held to 64 bits then. -/
theorem wholePart_finite (negative : Bool) (code : Fin magnitudeCount) :
    (finite negative code).wholePart = holdToInt64 (towardZero (finite negative code).toRat) := by
  have hwhole : towardZero ((units code : ℚ) / (unitsPerOne : ℚ)) =
      (units code : ℤ) / (unitsPerOne : ℤ) := by
    rw [towardZero_of_nonneg (by positivity)]
    exact Rat.floor_intCast_div_natCast _ _
  cases negative with
  | false => simp only [wholePart, toRat, Bool.false_eq_true, if_false, one_mul, hwhole]
  | true => simp only [wholePart, toRat, if_true, neg_one_mul, towardZero_neg, hwhole]

theorem units_of_fields {exponent fraction : Nat} (hexponent : exponent ≠ 0)
    (hfraction : fraction < binadeSize) :
    units (fraction + exponent * binadeSize) = (binadeSize + fraction) * 2 ^ (exponent - 1) := by
  have hdiv : (fraction + exponent * binadeSize) / binadeSize = exponent := by
    rw [Nat.add_mul_div_right _ _ (by decide), Nat.div_eq_of_lt hfraction, Nat.zero_add]
  have hmod : (fraction + exponent * binadeSize) % binadeSize = fraction := by
    rw [Nat.add_mul_mod_self_right, Nat.mod_eq_of_lt hfraction]
  rw [units_eq, hdiv, hmod, if_neg hexponent]

/-- A whole number of up to 53 bits, moved up until its first bit stands before
a fraction of 52 bits. -/
theorem exists_fraction_eq {n : Nat} (hzero : n ≠ 0) (h : n < 2 ^ 53) :
    n.log2 ≤ 52 ∧ ∃ fraction < binadeSize, n * 2 ^ (52 - n.log2) = binadeSize + fraction := by
  have hlog : n.log2 ≤ 52 := Nat.le_of_lt_succ ((Nat.log2_lt hzero).mpr h)
  obtain ⟨hlow, hhigh⟩ := (Nat.log2_eq_iff hzero).mp rfl
  have hfill : 2 ^ n.log2 * 2 ^ (52 - n.log2) = binadeSize := by
    rw [← Nat.pow_add, Nat.add_sub_cancel' hlog]
  have hmin : binadeSize ≤ n * 2 ^ (52 - n.log2) := hfill ▸ Nat.mul_le_mul_right _ hlow
  have hmax : n * 2 ^ (52 - n.log2) < 2 * binadeSize := by
    rw [← hfill, ← Nat.mul_assoc, ← Nat.pow_succ']
    exact Nat.mul_lt_mul_of_pos_right hhigh (Nat.two_pow_pos _)
  obtain ⟨fraction, hfraction⟩ := Nat.exists_eq_add_of_le hmin
  exact ⟨hlog, fraction, by omega, hfraction⟩

/-- Whole numbers of up to 53 bits are magnitudes. -/
theorem exists_units_eq {n : Nat} (h : n < 2 ^ 53) :
    ∃ code : Fin magnitudeCount, units code = n * unitsPerOne := by
  by_cases hzero : n = 0
  · exact ⟨⟨0, by decide⟩, by rw [hzero, Nat.zero_mul]; rfl⟩
  obtain ⟨hlog, fraction, hsmall, hfraction⟩ := exists_fraction_eq hzero h
  have hcode : fraction + (1023 + n.log2) * binadeSize < magnitudeCount := by
    unfold binadeSize at hsmall ⊢
    unfold magnitudeCount
    omega
  have hexponent : 52 - n.log2 + (1023 + n.log2 - 1) = 1074 := by omega
  refine ⟨⟨_, hcode⟩, ?_⟩
  rw [units_of_fields (by omega) hsmall, ← hfraction, unitsPerOne_eq hexponent, Nat.mul_assoc]

theorem exists_ofInt_eq {n : ℤ} (h : n.natAbs < 2 ^ 53) :
    ∃ code, ofInt n = finite (decide (n < 0)) code ∧ units code = n.natAbs * unitsPerOne := by
  obtain ⟨code, hcode⟩ := exists_units_eq h
  refine ⟨code, ?_, hcode⟩
  rw [ofInt, ← hcode, ← Nat.mul_one (units code)]
  exact ofRatio_units _ code Nat.one_pos

/-- The number that is made of a whole number of up to 53 bits has it as its value. -/
theorem toRat_ofInt {n : ℤ} (h : n.natAbs < 2 ^ 53) : (ofInt n).toRat = n := by
  obtain ⟨code, hfinite, hunits⟩ := exists_ofInt_eq h
  rw [hfinite, toRat, hunits, Nat.cast_mul, mul_div_cancel_right₀ _ unitsPerOne_ne_zero,
    Nat.cast_natAbs]
  by_cases hneg : n < 0
  · rw [if_pos (decide_eq_true hneg), abs_of_neg hneg, Int.cast_neg, neg_mul_neg, one_mul]
  · rw [if_neg (by simpa using hneg), one_mul, abs_of_nonneg (not_lt.mp hneg)]

end Binary64

end CollisionMesh
