import CollisionMesh.Identifier
import CollisionMesh.Proofs.BlankText

/-!
# Identifiers from text

When the sanitizer and the naming of materials yield a text at all, and that any text they yield is
an identifier. An identifier is told by its characters and by its first one, which is no digit.
-/

namespace CollisionMesh.Identifier

set_option autoImplicit false

theorem guardDigit_eq_nil_iff (cs : List Char) : guardDigit cs = [] ↔ cs = [] := by
  cases cs with
  | nil => simp [guardDigit]
  | cons c cs =>
    simp only [guardDigit]
    split <;> simp

theorem sanitizeChars_eq_nil_iff (cs : List Char) :
    sanitizeChars cs = [] ↔ ∀ c ∈ cs, Text.isBlank c = true := by
  rw [sanitizeChars, guardDigit_eq_nil_iff, List.map_eq_nil_iff, Text.trim_eq_nil_iff]

theorem isNameChar_of_mem_sanitizeChars {cs : List Char} {c : Char} (h : c ∈ sanitizeChars cs) :
    isNameChar c = true := by
  have hmap : ∀ d ∈ (Text.trim cs).map (fun c => if isNameChar c then c else '_'),
      isNameChar d = true := by
    intro d hd
    obtain ⟨e, _, rfl⟩ := List.mem_map.mp hd
    split
    · assumption
    · decide
  unfold sanitizeChars at h
  generalize (Text.trim cs).map (fun c => if isNameChar c then c else '_') = chars at h hmap
  cases chars with
  | nil => cases h
  | cons first rest =>
    simp only [guardDigit] at h
    split at h
    · rcases List.mem_cons.mp h with rfl | h
      · decide
      · exact hmap c h
    · exact hmap c h

/-- Only blank materials have no name, whatever stands before it. -/
theorem ofMaterial_eq_empty_iff (lead name : String) :
    ofMaterial lead name = "" ↔ ∀ c ∈ name.toList, Text.isBlank c = true := by
  rw [← Text.trim_eq_nil_iff, ofMaterial]
  constructor
  · intro h
    by_contra hne
    rw [if_neg (by simpa using hne)] at h
    have hnil : (sanitizeChars (lead.toList ++ Text.trim name.toList)).map Char.toUpper = [] :=
      String.ofList_eq_empty_iff.mp h
    rw [List.map_eq_nil_iff, sanitizeChars_eq_nil_iff] at hnil
    refine hne ((Text.trim_eq_nil_iff _).mpr ((Text.forall_mem_trim_iff _).mp ?_))
    exact fun c hc => hnil c (List.mem_append_right _ hc)
  · intro h
    simp [h]

/-- An identifier has characters of names only, at least one, and does not start with a digit. -/
def IsIdentifierChars (cs : List Char) : Prop :=
  cs ≠ [] ∧ (∀ c ∈ cs, isNameChar c = true) ∧ ∀ c ∈ cs.head?, c.isDigit = false

theorem isUpper_iff (c : Char) : c.isUpper = true ↔ 65 ≤ c.toNat ∧ c.toNat ≤ 90 :=
  decide_eq_true_iff

theorem isLower_iff (c : Char) : c.isLower = true ↔ 97 ≤ c.toNat ∧ c.toNat ≤ 122 :=
  Bool.and_eq_true_iff.trans (and_congr decide_eq_true_iff decide_eq_true_iff)

theorem isDigit_iff (c : Char) : c.isDigit = true ↔ 48 ≤ c.toNat ∧ c.toNat ≤ 57 :=
  Bool.and_eq_true_iff.trans (and_congr decide_eq_true_iff decide_eq_true_iff)

theorem isAlpha_iff (c : Char) : c.isAlpha = true ↔ c.isUpper = true ∨ c.isLower = true :=
  Bool.or_eq_true_iff

theorem not_isDigit_of_isLead {c : Char} (h : (c.isAlpha || c == '_') = true) :
    c.isDigit = false := by
  rw [Bool.or_eq_true, beq_iff_eq] at h
  rcases h with h | rfl
  · rw [isAlpha_iff, isUpper_iff, isLower_iff] at h
    rw [Bool.eq_false_iff, ne_eq, isDigit_iff]
    omega
  · decide

theorem isIdentifier_iff (text : String) :
    isIdentifier text = true ↔ IsIdentifierChars text.toList := by
  unfold isIdentifier IsIdentifierChars
  cases text.toList with
  | nil => simp
  | cons c cs =>
    have hlead : (c.isAlpha || c == '_') = true ↔ isNameChar c = true ∧ c.isDigit = false := by
      constructor
      · intro h
        refine ⟨?_, not_isDigit_of_isLead h⟩
        simp only [isNameChar, Char.isAlphanum, Bool.or_eq_true] at h ⊢
        exact h.imp_left Or.inl
      · rintro ⟨hname, hdigit⟩
        simpa [isNameChar, Char.isAlphanum, hdigit] using hname
    simp only [Bool.and_eq_true, hlead, List.all_eq_true]
    simp [and_assoc, and_comm]

/-- What follows an identifier may be any text of characters of names. -/
theorem isIdentifier_append {text : String} (h : isIdentifier text = true) {more : String}
    (hmore : more.toList.all isNameChar = true) : isIdentifier (text ++ more) = true := by
  rw [isIdentifier_iff] at h ⊢
  obtain ⟨hne, hchars, hfirst⟩ := h
  rw [String.toList_append]
  refine ⟨List.append_ne_nil_of_left_ne_nil hne _, ?_, ?_⟩
  · intro c hc
    exact (List.mem_append.mp hc).elim (hchars c) (List.all_eq_true.mp hmore c)
  · obtain ⟨first, rest, heq⟩ := List.exists_cons_of_ne_nil hne
    rw [heq] at hfirst ⊢
    exact hfirst

theorem isDigit_head?_guardDigit (cs : List Char) :
    ∀ c ∈ (guardDigit cs).head?, c.isDigit = false := by
  cases cs with
  | nil => simp [guardDigit]
  | cons first rest =>
    intro c hc
    simp only [guardDigit] at hc
    split at hc
    · cases hc
      decide
    · rename_i hdigit
      cases hc
      simpa using hdigit

/-- The sanitizer makes an identifier of any text that is not blank. -/
theorem isIdentifierChars_sanitizeChars {cs : List Char} (h : sanitizeChars cs ≠ []) :
    IsIdentifierChars (sanitizeChars cs) :=
  ⟨h, fun _ => isNameChar_of_mem_sanitizeChars, isDigit_head?_guardDigit _⟩

theorem isIdentifier_sanitize {text : String} (h : sanitize text ≠ "") :
    isIdentifier (sanitize text) = true := by
  rw [isIdentifier_iff, sanitize, String.toList_ofList]
  apply isIdentifierChars_sanitizeChars
  exact fun hnil => h (String.ofList_eq_empty_iff.mpr hnil)

theorem range_of_isNameChar {c : Char} (h : isNameChar c = true) :
    c.toNat = 95 ∨ (48 ≤ c.toNat ∧ c.toNat ≤ 57) ∨ (65 ≤ c.toNat ∧ c.toNat ≤ 90) ∨
      (97 ≤ c.toNat ∧ c.toNat ≤ 122) := by
  simp only [isNameChar, Char.isAlphanum, Bool.or_eq_true, isAlpha_iff, isUpper_iff, isLower_iff,
    isDigit_iff, beq_iff_eq] at h
  rcases h with ((h | h) | h) | rfl
  · exact .inr (.inr (.inl h))
  · exact .inr (.inr (.inr h))
  · exact .inr (.inl h)
  · exact .inl rfl

theorem not_isBlank_of_isNameChar {c : Char} (h : isNameChar c = true) :
    Text.isBlank c = false := by
  have hrange := range_of_isNameChar h
  simp only [Text.isBlank, Text.blankRanges, List.any_cons, List.any_nil, Bool.or_false,
    Bool.or_eq_false_iff, Bool.and_eq_false_iff, decide_eq_false_iff_not]
  omega

/-- The sanitizer leaves identifiers as they are. -/
theorem sanitize_of_isIdentifier {text : String} (h : isIdentifier text = true) :
    sanitize text = text := by
  obtain ⟨_, hchars, hfirst⟩ := (isIdentifier_iff text).mp h
  have htrim : Text.trim text.toList = text.toList :=
    Text.trim_of_forall fun c hc => not_isBlank_of_isNameChar (hchars c hc)
  have hmap : text.toList.map (fun c => if isNameChar c then c else '_') = text.toList := by
    refine (List.map_congr_left fun c hc => ?_).trans (List.map_id _)
    rw [if_pos (hchars c hc)]
    rfl
  have hguard : guardDigit text.toList = text.toList := by
    generalize text.toList = cs at hfirst
    cases cs with
    | nil => rfl
    | cons c cs =>
      have hdigit : c.isDigit = false := hfirst c rfl
      rw [guardDigit, hdigit, if_neg (by simp)]
  rw [sanitize, sanitizeChars, htrim, hmap, hguard, String.ofList_toList]

theorem isUpper_toUpper {c : Char} (h : c.isLower = true) : c.toUpper.isUpper = true := by
  have hrange : 'a'.val ≤ c.val ∧ c.val ≤ 'z'.val := (isLower_iff c).mp h
  have hupper : c.toUpper = ⟨c.val + ('A'.val - 'a'.val), _⟩ := dif_pos hrange
  have htoNat := congrArg UInt32.toNat (congrArg Char.val hupper)
  have hvalue : ('A'.val - 'a'.val).toNat = 4294967264 := rfl
  rw [UInt32.toNat_add, hvalue, Char.toNat_val, Char.toNat_val] at htoNat
  rw [isLower_iff] at h
  rw [isUpper_iff]
  omega

theorem toUpper_of_not_isLower {c : Char} (h : c.isLower = false) : c.toUpper = c := by
  refine dif_neg fun hrange => ?_
  rw [(isLower_iff c).mpr hrange] at h
  cases h

theorem toLower_of_not_isUpper {c : Char} (h : c.isUpper = false) : c.toLower = c := by
  refine dif_neg fun hrange => ?_
  rw [(isUpper_iff c).mpr hrange] at h
  cases h

theorem toNat_toLower_of_isUpper {c : Char} (h : c.isUpper = true) :
    c.toLower.toNat = c.toNat + 32 := by
  have hrange : 'A'.val ≤ c.val ∧ c.val ≤ 'Z'.val := (isUpper_iff c).mp h
  have hlower : c.toLower = ⟨c.val + ('a'.val - 'A'.val), _⟩ := dif_pos hrange
  have htoNat := congrArg UInt32.toNat (congrArg Char.val hlower)
  have hvalue : ('a'.val - 'A'.val).toNat = 32 := rfl
  rw [UInt32.toNat_add, hvalue, Char.toNat_val, Char.toNat_val] at htoNat
  rw [isUpper_iff] at h
  omega

theorem isNameChar_toUpper {c : Char} (h : isNameChar c = true) : isNameChar c.toUpper = true := by
  cases hlower : c.isLower with
  | true =>
    simp only [isNameChar, Char.isAlphanum, Bool.or_eq_true, isAlpha_iff, isUpper_toUpper hlower,
      true_or]
  | false => rwa [toUpper_of_not_isLower hlower]

theorem isDigit_toUpper {c : Char} (h : c.isDigit = false) : c.toUpper.isDigit = false := by
  cases hlower : c.isLower with
  | true =>
    apply not_isDigit_of_isLead
    rw [Bool.or_eq_true, isAlpha_iff]
    exact .inl (.inl (isUpper_toUpper hlower))
  | false => rwa [toUpper_of_not_isLower hlower]

/-- Upper case keeps identifiers. -/
theorem IsIdentifierChars.map_toUpper {cs : List Char} (h : IsIdentifierChars cs) :
    IsIdentifierChars (cs.map Char.toUpper) := by
  obtain ⟨hne, hchars, hfirst⟩ := h
  refine ⟨mt List.map_eq_nil_iff.mp hne, ?_, ?_⟩
  · intro c hc
    obtain ⟨d, hd, rfl⟩ := List.mem_map.mp hc
    exact isNameChar_toUpper (hchars d hd)
  · intro c hc
    rw [List.head?_map, Option.mem_def, Option.map_eq_some_iff] at hc
    obtain ⟨d, hd, rfl⟩ := hc
    exact isDigit_toUpper (hfirst d hd)

/-- The name of a material is an identifier whatever the material is called and
whatever stands before it. -/
theorem isIdentifier_ofMaterial {lead name : String} (h : ofMaterial lead name ≠ "") :
    isIdentifier (ofMaterial lead name) = true := by
  unfold ofMaterial at h ⊢
  simp only at h ⊢
  split at h
  · exact absurd rfl h
  · rename_i hblank
    rw [if_neg hblank, isIdentifier_iff, String.toList_ofList]
    apply IsIdentifierChars.map_toUpper
    apply isIdentifierChars_sanitizeChars
    intro hnil
    exact h (by rw [hnil]; rfl)

theorem isIdentifier_arrayName {symbol : String} (h : isIdentifier symbol = true) :
    isIdentifier (arrayName symbol) = true :=
  isIdentifier_append h (by decide)

theorem isIdentifier_countName {symbol : String} (h : isIdentifier symbol = true) :
    isIdentifier (countName symbol) = true :=
  isIdentifier_append h (by decide)

end CollisionMesh.Identifier
