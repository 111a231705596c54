import CollisionMesh.Proofs.SourceReading

/-!
# Decimals in full

Every finite magnitude is a whole number of units, and the unit has finitely many decimal
places. So every number has a decimal text that is its exact value, and what is read from
that text is the number.
-/

namespace CollisionMesh

set_option autoImplicit false

namespace Binary64

section Exact

theorem roundDiv_mul (n : Nat) {d : Nat} (hd : 0 < d) : roundDiv (n * d) d = n := by
  rw [roundDiv]
  simp only [Nat.mul_div_cancel n hd, Nat.mul_mod_left]
  exact if_pos (.inl hd)

theorem log2_shiftLeft {mantissa : Nat} (h : mantissa < binadeSize) (shift : Nat) :
    ((binadeSize + mantissa) <<< shift).log2 = 52 + shift := by
  have hlow : 2 ^ 52 * 2 ^ shift ≤ (binadeSize + mantissa) * 2 ^ shift :=
    Nat.mul_le_mul_right _ (Nat.le_add_right binadeSize mantissa)
  have hhigh : (binadeSize + mantissa) * 2 ^ shift < 2 ^ 53 * 2 ^ shift :=
    Nat.mul_lt_mul_of_pos_right (Nat.add_lt_add_left h binadeSize) (Nat.two_pow_pos shift)
  have hpos : 0 < 2 ^ 52 * 2 ^ shift := Nat.mul_pos (by decide) (Nat.two_pow_pos shift)
  rw [Nat.shiftLeft_eq, Nat.log2_eq_iff (Nat.ne_of_gt (Nat.lt_of_lt_of_le hpos hlow)), Nat.pow_add]
  exact ⟨hlow, by rwa [Nat.add_right_comm, Nat.pow_add]⟩

/-- A magnitude is found again from itself, over whatever it is written as a quotient. -/
theorem nearestCode_units (code : Nat) {scale : Nat} (hscale : 0 < scale) :
    nearestCode (units code * scale) scale = code := by
  rw [nearestCode, Nat.mul_div_cancel _ hscale]
  unfold units
  split
  · rename_i hsmall
    have hlog : code.log2 - 52 = 0 := by
      by_cases hzero : code = 0
      · rw [hzero]
        rfl
      · have hlt : code.log2 < 53 := (Nat.log2_lt hzero).mpr hsmall
        omega
    simp only [hlog, Nat.shiftLeft_zero, roundDiv_mul _ hscale, Nat.zero_mul, Nat.add_zero]
  · rename_i hlarge
    have hdiv : 2 ≤ code / binadeSize := by
      rw [Nat.le_div_iff_mul_le (by decide)]
      omega
    have hlog :=
      log2_shiftLeft (Nat.mod_lt code (show 0 < binadeSize by decide)) (code / binadeSize - 1)
    have hshift : 52 + (code / binadeSize - 1) - 52 = code / binadeSize - 1 := by omega
    simp only [hlog, hshift]
    rw [Nat.shiftLeft_eq, Nat.shiftLeft_eq, Nat.mul_assoc, Nat.mul_comm (2 ^ _) scale,
      roundDiv_mul _ (Nat.mul_pos hscale (Nat.two_pow_pos _)), Nat.sub_mul, Nat.one_mul]
    have hsize : binadeSize ≤ code / binadeSize * binadeSize := Nat.le_mul_of_pos_left _ (by omega)
    have hcode := Nat.div_add_mod' code binadeSize
    omega

/-- How many decimal places a unit has. -/
@[irreducible] def lastPlace : Nat := 1074

/-- A unit as a multiple of the last of these places. -/
@[irreducible] def unitInPlaces : Nat := Nat.pow 5 lastPlace

theorem unitInPlaces_pos : 0 < unitInPlaces := by decide +kernel

theorem unitInPlaces_mul : unitInPlaces * unitsPerOne = Nat.pow 10 lastPlace := by decide +kernel

/-- The digits of a magnitude in full, up to the last place that any magnitude has. -/
def exactDigits (code : Nat) : List Char := Nat.toDigits 10 (units code * unitInPlaces)

def exactText : Binary64 → String
  | nan => "nan"
  | infinite negative => if negative then "-inf" else "inf"
  | finite negative code =>
    String.ofList ((if negative then ['-'] else []) ++ exactDigits code ++ "e-1074".toList)

theorem units_lt (code : Nat) : units code < Nat.pow 2 (53 + code / binadeSize) := by
  unfold units
  split
  · rename_i hsmall
    exact Nat.lt_of_lt_of_le hsmall (Nat.pow_le_pow_right Nat.zero_lt_two (Nat.le_add_right 53 _))
  · have hmod : code % binadeSize < binadeSize := Nat.mod_lt _ (by decide)
    have hpow : Nat.pow 2 (53 + code / binadeSize) = 2 ^ 53 * 2 ^ (code / binadeSize) :=
      Nat.pow_add 2 53 _
    rw [Nat.shiftLeft_eq, hpow]
    exact Nat.mul_lt_mul_of_lt_of_le (Nat.add_lt_add_left hmod binadeSize)
      (Nat.pow_le_pow_right Nat.zero_lt_two (Nat.sub_le _ 1)) (Nat.two_pow_pos _)

theorem units_pos {code : Nat} (h : code ≠ 0) : 0 < units code := by
  unfold units
  split
  · exact Nat.pos_of_ne_zero h
  · rw [Nat.shiftLeft_eq]
    exact Nat.mul_pos (Nat.add_pos_left (by decide) _) (Nat.two_pow_pos _)

theorem lt_length_exactDigits {code places : Nat} (hne : code ≠ 0) (hplaces : 0 < places)
    (h : Nat.pow 10 places ≤ unitInPlaces) : places < (exactDigits code).length := by
  refine Nat.lt_of_not_le fun hle => ?_
  have hshort := (Nat.length_toDigits_le_iff (by decide) hplaces).mp hle
  exact Nat.not_lt.mpr (Nat.le_trans h (Nat.le_mul_of_pos_left _ (units_pos hne))) hshort

theorem length_exactDigits_le {code binade places : Nat} (hcode : code / binadeSize ≤ binade)
    (hplaces : 0 < places) (h : Nat.pow 2 (53 + binade) * unitInPlaces < Nat.pow 10 places) :
    (exactDigits code).length ≤ places := by
  refine (Nat.length_toDigits_le_iff (by decide) hplaces).mpr (Nat.lt_of_le_of_lt ?_ h)
  have hpow := Nat.pow_le_pow_right Nat.zero_lt_two (Nat.add_le_add_left hcode 53)
  exact Nat.mul_le_mul_right _ (Nat.le_trans (Nat.le_of_lt (units_lt code)) hpow)

theorem length_exactDigits {code : Nat} (h : code < magnitudeCount) (hne : code ≠ 0) :
    lastPlace < (exactDigits code).length + 330 ∧ (exactDigits code).length ≤ lastPlace + 310 := by
  have hbinade : code / binadeSize < 2047 := Nat.div_lt_of_lt_mul (Nat.lt_of_lt_of_eq h (by decide))
  have hlow :=
    lt_length_exactDigits hne (show 0 < lastPlace - 330 by decide +kernel) (by decide +kernel)
  exact ⟨by omega,
    length_exactDigits_le (Nat.le_of_lt_succ hbinade) (Nat.add_pos_right _ (by decide))
      (by decide +kernel)⟩

theorem ofRatio_units (negative : Bool) (code : Fin magnitudeCount) {scale : Nat}
    (hscale : 0 < scale) :
    ofRatio negative (units code * scale) scale = finite negative code := by
  unfold ofRatio
  simp only [nearestCode_units code hscale]
  exact dif_pos code.isLt

theorem toBinary64_of_units (negative : Bool) {code : Fin magnitudeCount} {scale : Nat}
    (places : Nat) (hscale : scale * unitsPerOne = Nat.pow 10 places) (hne : units code * scale ≠ 0)
    (hlow : places ≤ (Nat.toDigits 10 (units code * scale)).length + 330)
    (hhigh : (Nat.toDigits 10 (units code * scale)).length ≤ places + 310) :
    (⟨negative, units code * scale, -(places : Int)⟩ : Decimal).toBinary64 =
      finite negative code := by
  have hwhole : (-(places : Int)).toNat = 0 := by simp
  have hplaces : (- -(places : Int)).toNat = places := by simp
  unfold Decimal.toBinary64
  simp only [hwhole, hplaces]
  rw [if_neg (not_or.mpr ⟨hne, by omega⟩), if_neg (by omega)]
  have hquotient : units code * scale * Nat.pow 10 0 * unitsPerOne =
      units code * Nat.pow 10 places := by
    rw [← hscale, ← Nat.mul_assoc]
    congr 1
    exact Nat.mul_one _
  rw [hquotient]
  exact ofRatio_units negative code (Nat.pow_pos (by decide))

theorem toBinary64_zero (negative : Bool) (exponent : Int) :
    (⟨negative, 0, exponent⟩ : Decimal).toBinary64 = zero negative := by
  unfold Decimal.toBinary64
  exact if_pos (.inl rfl)

theorem toBinary64_exact (negative : Bool) (code : Fin magnitudeCount) :
    (⟨negative, units code * unitInPlaces, -(lastPlace : Int)⟩ : Decimal).toBinary64 =
      finite negative code := by
  by_cases hzero : code.val = 0
  · have hunits : units code * unitInPlaces = 0 := by
      rw [hzero]
      exact Nat.zero_mul _
    rw [hunits, toBinary64_zero, zero]
    exact congrArg (finite negative) (Fin.ext hzero.symm)
  · obtain ⟨hlow, hhigh⟩ := length_exactDigits code.isLt hzero
    have hne : units code * unitInPlaces ≠ 0 :=
      Nat.ne_of_gt (Nat.mul_pos (units_pos hzero) unitInPlaces_pos)
    unfold exactDigits at hlow hhigh
    exact toBinary64_of_units negative lastPlace unitInPlaces_mul hne (by omega) (by omega)

theorem ofText?_of_isDigitRun {digits : List Char} (h : isDigitRun digits = true)
    (rest : List Char) :
    Literal.ofText? (digits ++ 'e' :: rest) =
      (readInt? rest).map fun exponent => ⟨digits, [], exponent⟩ := by
  have hdigits : ∀ c ∈ digits, c.isDigit = true := fun c => isDigit_of_isDigitRun h
  have hne : digits.isEmpty = false := by
    rw [isDigitRun, Bool.and_eq_true] at h
    simpa using h.1
  have hmark : ('e' : Char).isDigit = false := by decide
  unfold Literal.ofText?
  rw [List.takeWhile_append_of_pos hdigits, List.dropWhile_append_of_pos hdigits,
    List.takeWhile_cons_of_neg (by simp [hmark]), List.dropWhile_cons_of_neg (by simp [hmark]),
    List.append_nil]
  simp only [hne, Bool.false_and, Bool.false_eq_true, if_false]
  rfl

theorem toLower_of_isDigit {c : Char} (h : c.isDigit = true) : c.toLower = c := by
  apply Identifier.toLower_of_not_isUpper
  rw [Identifier.isDigit_iff] at h
  rw [Bool.eq_false_iff, ne_eq, Identifier.isUpper_iff]
  omega

/-- What starts with a digit, but for a sign, is no name of a number. -/
theorem ofText?_of_digit {cs body : List Char} {negative : Bool} {c : Char} (h : c.isDigit = true)
    (hsign : splitSign cs = (negative, c :: body)) :
    ofText? cs = (Literal.ofText? (c :: body)).map fun literal =>
      (literal.decimal negative).toBinary64 := by
  have hlower : c.toLower ≠ 'i' ∧ c.toLower ≠ 'n' := by
    rw [toLower_of_isDigit h]
    exact ⟨fun heq => absurd (heq ▸ h) (by decide), fun heq => absurd (heq ▸ h) (by decide)⟩
  have hinf : (c :: body).map Char.toLower ≠ "inf".toList :=
    fun heq => hlower.1 (List.cons.inj heq).1
  have hinfinity : (c :: body).map Char.toLower ≠ "infinity".toList :=
    fun heq => hlower.1 (List.cons.inj heq).1
  have hnan : (c :: body).map Char.toLower ≠ "nan".toList :=
    fun heq => hlower.2 (List.cons.inj heq).1
  unfold ofText?
  rw [hsign]
  simp only
  rw [if_neg (not_or.mpr ⟨hinf, hinfinity⟩), if_neg hnan]

theorem ofText?_exactText (x : Binary64) : ofText? x.exactText.toList = some x := by
  cases x with
  | nan => decide
  | infinite negative => cases negative <;> decide
  | finite negative code =>
    have hrun : isDigitRun (exactDigits code) = true := isDigitRun_toDigits _
    have hliteral := ofText?_of_isDigitRun hrun "-1074".toList
    have hexponent : readInt? "-1074".toList = some (-(lastPlace : Int)) := by decide +kernel
    have hvalue : (Literal.decimal ⟨exactDigits code, [], -(lastPlace : Int)⟩ negative).toBinary64 =
        finite negative code := by
      rw [Literal.decimal, List.append_nil, exactDigits, digitsValue_toDigits, List.length_nil,
        Int.natCast_zero, Int.sub_zero]
      exact toBinary64_exact negative code
    cases hdigits : exactDigits code with
    | nil => exact absurd hdigits Nat.toDigits_ne_nil
    | cons c tail =>
      have hdigit : c.isDigit = true := isDigit_of_isDigitRun hrun (hdigits ▸ List.mem_cons_self)
      have hsign : splitSign (exactText (finite negative code)).toList =
          (negative, c :: (tail ++ 'e' :: "-1074".toList)) := by
        rw [exactText, String.toList_ofList, hdigits]
        cases negative with
        | true => rfl
        | false => exact splitSign_of_digit hdigit _
      rw [hdigits] at hliteral hvalue
      rw [ofText?_of_digit hdigit hsign, ← List.cons_append, hliteral, hexponent, Option.map_some,
        Option.map_some, hvalue]

end Exact
end Binary64
end CollisionMesh
