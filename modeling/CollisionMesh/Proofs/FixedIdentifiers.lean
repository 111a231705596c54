import CollisionMesh.Proofs.Identifiers

/-!
# Identifiers that stay as they are

The sanitizer and the check of identifiers are written apart and agree: what the check lets through
is what the sanitizer leaves as it is, unless there is nothing to leave. So a second pass finds
nothing to do, and neither does the naming of materials with a name that it gave itself.
-/

namespace CollisionMesh.Identifier

set_option autoImplicit false

variable {text name : String}

theorem sanitize_eq_empty_iff (text : String) :
    sanitize text = "" ↔ ∀ c ∈ text.toList, Text.isBlank c = true := by
  rw [sanitize, String.ofList_eq_empty_iff, sanitizeChars_eq_nil_iff]

theorem ne_empty_of_isIdentifier (h : isIdentifier text = true) : text ≠ "" := by
  rintro rfl
  cases h

theorem isIdentifier_iff_sanitize (text : String) :
    isIdentifier text = true ↔ text ≠ "" ∧ sanitize text = text := by
  constructor
  · exact fun h => ⟨ne_empty_of_isIdentifier h, sanitize_of_isIdentifier h⟩
  · rintro ⟨hne, hfixed⟩
    rw [← hfixed]
    exact isIdentifier_sanitize (hfixed.symm ▸ hne)

theorem sanitize_sanitize (text : String) : sanitize (sanitize text) = sanitize text := by
  by_cases hempty : sanitize text = ""
  · rw [hempty]
    rfl
  · exact sanitize_of_isIdentifier (isIdentifier_sanitize hempty)

theorem isLower_toUpper (c : Char) : c.toUpper.isLower = false := by
  cases h : c.isLower with
  | true =>
    have hupper := (isUpper_iff _).mp (isUpper_toUpper h)
    rw [Bool.eq_false_iff, ne_eq, isLower_iff]
    omega
  | false => rw [toUpper_of_not_isLower h, h]

theorem not_isLower_of_mem_ofMaterial {lead : String} {c : Char}
    (h : c ∈ (ofMaterial lead name).toList) :
    c.isLower = false := by
  unfold ofMaterial at h
  simp only at h
  split at h
  · cases h
  · rw [String.toList_ofList] at h
    obtain ⟨d, _, rfl⟩ := List.mem_map.mp h
    exact isLower_toUpper d

/-- White space around a name is no part of it. -/
theorem ofMaterial_padded (lead name : String) {before after : String}
    (hbefore : ∀ c ∈ before.toList, Text.isBlank c = true)
    (hafter : ∀ c ∈ after.toList, Text.isBlank c = true) :
    ofMaterial lead (before ++ name ++ after) = ofMaterial lead name := by
  have htrim : Text.trim (before ++ name ++ after).toList = Text.trim name.toList := by
    rw [String.toList_append, String.toList_append, Text.trim_append_blank hafter,
      Text.trim_blank_append hbefore]
  rw [ofMaterial, ofMaterial, htrim]

/-- An identifier is taken as the name of a material but for its case. -/
theorem ofMaterial_of_isIdentifier (h : isIdentifier name = true) :
    ofMaterial "" name = String.ofList (name.toList.map Char.toUpper) := by
  obtain ⟨hne, hchars, _⟩ := (isIdentifier_iff name).mp h
  have htrim : Text.trim name.toList = name.toList :=
    Text.trim_of_forall fun c hc => not_isBlank_of_isNameChar (hchars c hc)
  have hsanitize : sanitizeChars name.toList = name.toList := by
    rw [← String.toList_ofList (l := sanitizeChars name.toList)]
    exact congrArg String.toList (sanitize_of_isIdentifier h)
  have hempty : ("" : String).toList ++ name.toList = name.toList := rfl
  simp only [ofMaterial, htrim, hempty, hsanitize]
  rw [if_neg (by simpa using hne)]

theorem ofMaterial_ofMaterial (lead name : String) :
    ofMaterial "" (ofMaterial lead name) = ofMaterial lead name := by
  by_cases hempty : ofMaterial lead name = ""
  · rw [hempty]
    rfl
  · have hcase : (ofMaterial lead name).toList.map Char.toUpper = (ofMaterial lead name).toList :=
      (List.map_congr_left fun c hc =>
        toUpper_of_not_isLower (not_isLower_of_mem_ofMaterial hc)).trans (List.map_id _)
    rw [ofMaterial_of_isIdentifier (isIdentifier_ofMaterial hempty), hcase, String.ofList_toList]

/-- An identifier is not empty, so what is an identifier unless it is empty is
one just if it is not. -/
theorem isIdentifier_iff_of_eq_empty_iff {blank : Prop}
    (hidentifier : text ≠ "" → isIdentifier text = true) (hempty : text = "" ↔ blank) :
    isIdentifier text = true ↔ ¬blank := by
  rw [← hempty]
  exact ⟨ne_empty_of_isIdentifier, hidentifier⟩

/-- The identifiers are the texts that the sanitizer leaves as they are, but for the empty one. It
makes an identifier of every text that is not blank and nothing of a blank one. So does the naming
of materials, whatever stands before the name: it has no small letters, does not see white space
around the name, and leaves its own names as they are. -/
theorem sanitizer_agrees (text : String) :
    (isIdentifier text = true ↔ IsIdentifierChars text.toList) ∧
    (isIdentifier text = true ↔ text ≠ "" ∧ sanitize text = text) ∧
    sanitize (sanitize text) = sanitize text ∧
    (sanitize text = "" ↔ ∀ c ∈ text.toList, Text.isBlank c = true) ∧
    (isIdentifier (sanitize text) = true ↔ ¬∀ c ∈ text.toList, Text.isBlank c = true) ∧
    ∀ lead : String,
      (ofMaterial lead text = "" ↔ ∀ c ∈ text.toList, Text.isBlank c = true) ∧
      (isIdentifier (ofMaterial lead text) = true ↔ ¬∀ c ∈ text.toList, Text.isBlank c = true) ∧
      (∀ c ∈ (ofMaterial lead text).toList, c.isLower = false) ∧
      (∀ before after : String, (∀ c ∈ before.toList ++ after.toList, Text.isBlank c = true) →
        ofMaterial lead (before ++ text ++ after) = ofMaterial lead text) ∧
      ofMaterial "" (ofMaterial lead text) = ofMaterial lead text := by
  have hsanitize := sanitize_eq_empty_iff text
  refine ⟨isIdentifier_iff text, isIdentifier_iff_sanitize text, sanitize_sanitize text, hsanitize,
    isIdentifier_iff_of_eq_empty_iff isIdentifier_sanitize hsanitize, fun lead => ?_⟩
  have hmaterial := ofMaterial_eq_empty_iff lead text
  refine ⟨hmaterial, isIdentifier_iff_of_eq_empty_iff isIdentifier_ofMaterial hmaterial,
    fun c => not_isLower_of_mem_ofMaterial, fun before after hblank => ?_,
    ofMaterial_ofMaterial lead text⟩
  obtain ⟨hbefore, hafter⟩ := List.forall_mem_append.mp hblank
  exact ofMaterial_padded lead text hbefore hafter

/-- A material between characters that are blank outside ASCII too, behind text that starts
with a blank and a digit. -/
theorem sanitizer_agrees_snow :
    (∀ c ∈ "\u00a0\t".toList ++ "\u3000".toList, Text.isBlank c = true) ∧
      ofMaterial " 9" ("\u00a0\t" ++ "snö.1" ++ "\u3000") = "_9SN__1" ∧
      isIdentifier (ofMaterial " 9" "snö.1") = true ∧ ofMaterial "" "_9SN__1" = "_9SN__1" := by
  have hall : ("\u00a0\t".toList ++ "\u3000".toList).all Text.isBlank = true := by decide +kernel
  have hblank := List.all_eq_true.mp hall
  have hname : ofMaterial " 9" "snö.1" = "_9SN__1" := by decide +kernel
  have hfull : ¬∀ c ∈ "snö.1".toList, Text.isBlank c = true :=
    fun h => absurd (h 's' (by decide)) (by decide)
  obtain ⟨_, hidentifier, _, hpadded, hfixed⟩ := (sanitizer_agrees "snö.1").2.2.2.2.2 " 9"
  refine ⟨hblank, (hpadded _ _ hblank).trans hname, hidentifier.mpr hfull, ?_⟩
  rwa [hname] at hfixed

end CollisionMesh.Identifier
