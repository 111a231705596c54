import CollisionMesh.AxisMap
import CollisionMesh.Proofs.SignedPermutations
import CollisionMesh.Proofs.SmallLetters
import CollisionMesh.Proofs.Traversal

/-!
# Texts of axis maps

Which texts are read as axis maps, and as which: names of presets and triples of signed letters.
Every map is a signed permutation with an inverse, has a text of its own from which it is read back,
and no other map has that text.
-/

namespace CollisionMesh

set_option autoImplicit false

/-- Whether a character is the letter of an axis, small or capital. -/
def Axis.SpelledBy (axis : Axis) (letter : Char) : Prop :=
  letter = axis.letter ∨ letter = axis.letter.toUpper

namespace Axis

variable {axis : Axis} {letter : Char}

theorem isLower_letter (axis : Axis) : axis.letter.isLower = true ∧ axis.letter ≠ 'k' := by
  cases axis <;> decide

theorem toLower_eq_letter_iff : letter.toLower = axis.letter ↔ axis.SpelledBy letter := by
  constructor
  · intro h
    cases hupper : letter.isUpper with
    | false => exact .inl ((Identifier.toLower_of_not_isUpper hupper).symm.trans h)
    | true =>
      have hcode := Identifier.toNat_toLower_of_isUpper hupper
      rw [h] at hcode
      have hcapital : axis.letter.toNat = axis.letter.toUpper.toNat + 32 := by cases axis <;> decide
      exact .inr (Char.toNat_inj.mp (by omega))
  · rintro (rfl | rfl) <;> cases axis <;> decide

theorem named?_eq_some_iff (name : List Char) :
    named? name = some axis ↔ ∃ letter, name = [letter] ∧ axis.SpelledBy letter := by
  have hnamed : named? name = some axis ↔ Text.lower name = [axis.letter] := by
    unfold named?
    simp only
    split
    · rename_i hx
      cases axis <;> simp [hx, Axis.letter]
    · rename_i hx
      split
      · rename_i hy
        cases axis <;> simp [hy, Axis.letter]
      · rename_i hy
        split
        · rename_i hz
          cases axis <;> simp [hz, Axis.letter]
        · rename_i hz
          cases axis <;> simp [hx, hy, hz, Axis.letter]
  rw [hnamed, Text.lower_eq_iff (by simpa using axis.isLower_letter), List.map_eq_singleton_iff]
  simp only [toLower_eq_letter_iff]

end Axis

/-- What a part of a text has between its white space: an axis letter, perhaps with one
sign directly before it. -/
inductive SignedAxis.Spells : List Char → SignedAxis → Prop where
  | bare {axis : Axis} {letter : Char} (h : axis.SpelledBy letter) : Spells [letter] ⟨axis, false⟩
  | plus {axis : Axis} {letter : Char} (h : axis.SpelledBy letter) :
      Spells ['+', letter] ⟨axis, false⟩
  | minus {axis : Axis} {letter : Char} (h : axis.SpelledBy letter) :
      Spells ['-', letter] ⟨axis, true⟩

namespace SignedAxis

variable {source : SignedAxis}

theorem ofName?_eq_some_iff (negated : Bool) (name : List Char) :
    ofName? negated name = some source ↔
      source.negated = negated ∧ ∃ letter, name = [letter] ∧ source.axis.SpelledBy letter := by
  rw [ofName?, Option.map_eq_some_iff]
  constructor
  · rintro ⟨axis, hname, rfl⟩
    exact ⟨rfl, (Axis.named?_eq_some_iff name).mp hname⟩
  · rintro ⟨rfl, hname⟩
    exact ⟨source.axis, (Axis.named?_eq_some_iff name).mpr hname, rfl⟩

theorem ofText?_eq_some_iff (part : List Char) :
    ofText? part = some source ↔ Spells part source := by
  obtain ⟨axis, negated⟩ := source
  constructor
  · intro h
    unfold ofText? at h
    split at h
    all_goals
      obtain ⟨hnegated, letter, rfl, hletter⟩ := (ofName?_eq_some_iff _ _).mp h
      simp only at hnegated hletter
      subst hnegated
    · exact .minus hletter
    · exact .plus hletter
    · exact .bare hletter
  · have hsign : ∀ letter, axis.SpelledBy letter → letter ≠ '-' ∧ letter ≠ '+' := by
      rintro letter (rfl | rfl) <;> cases axis <;> decide
    intro h
    cases h with
    | @bare _ letter h =>
      obtain ⟨hminus, hplus⟩ := hsign letter h
      have hbare : ofText? [letter] = ofName? false [letter] := by
        unfold ofText?
        split
        · rename_i heq
          exact absurd (List.cons.inj heq).1 hminus
        · rename_i heq
          exact absurd (List.cons.inj heq).1 hplus
        · rfl
      rw [hbare, ofName?_eq_some_iff]
      exact ⟨rfl, letter, rfl, h⟩
    | plus h => exact (ofName?_eq_some_iff _ _).mpr ⟨rfl, _, rfl, h⟩
    | minus h => exact (ofName?_eq_some_iff _ _).mpr ⟨rfl, _, rfl, h⟩

theorem Spells.ascii {part : List Char} (h : Spells part source) : ∀ c ∈ part, c.toNat < 0x80 := by
  have hletter : ∀ (axis : Axis) (letter : Char), axis.SpelledBy letter → letter.toNat < 0x80 := by
    rintro axis letter (rfl | rfl) <;> cases axis <;> decide
  intro c hc
  cases h with
  | bare h =>
    rw [List.mem_singleton.mp hc]
    exact hletter _ _ h
  | plus h | minus h =>
    rcases List.mem_cons.mp hc with rfl | hc
    · decide
    · rw [List.mem_singleton.mp hc]
      exact hletter _ _ h

end SignedAxis

namespace AxisMap

variable {text : String} {m : AxisMap}

/-- Whether a text between its white space is a name, up to the case of ASCII letters. -/
def IsNamed (text name : String) : Prop := (Text.trim text.toList).map Char.toLower = name.toList

/-- The texts of a map: the name of a preset, or signed letters of three axes
with commas between them. -/
inductive Spells (text : String) : AxisMap → Prop where
  | identity (h : IsNamed text "identity") : Spells text identity
  | zUpToYUp (h : IsNamed text "blender") : Spells text zUpToYUp
  | sources {x y z : List Char} {a b c : SignedAxis} (parts : text.toList.splitOn ',' = [x, y, z])
      (first : SignedAxis.Spells (Text.trim x) a) (second : SignedAxis.Spells (Text.trim y) b)
      (third : SignedAxis.Spells (Text.trim z) c)
      (distinct : a.axis ≠ b.axis ∧ a.axis ≠ c.axis ∧ b.axis ≠ c.axis) :
      Spells text ⟨a, b, c, distinct⟩

theorem readSource_eq_ok_iff (text : String) (part : List Char) (source : SignedAxis) :
    readSource text part = .ok source ↔ SignedAxis.Spells (Text.trim part) source := by
  rw [← SignedAxis.ofText?_eq_some_iff]
  unfold readSource
  split
  · rename_i found hfound
    rw [hfound, Except.ok.injEq, Option.some.injEq]
  · rename_i hnone
    rw [hnone]
    exact iff_of_false (by simp) (by simp)

theorem ofSources_eq_ok_iff {a b c : SignedAxis} :
    ofSources a b c = .ok m ↔
      ∃ distinct : a.axis ≠ b.axis ∧ a.axis ≠ c.axis ∧ b.axis ≠ c.axis,
        m = ⟨a, b, c, distinct⟩ := by
  constructor
  · intro h
    have hsources := sources_ofSources h
    obtain ⟨x, y, z, distinct⟩ := m
    cases hsources
    exact ⟨distinct, rfl⟩
  · rintro ⟨distinct, rfl⟩
    rw [ofSources, dif_neg distinct.1, dif_neg (not_or.mpr distinct.2)]

theorem isLower_of_mem_preset {c : Char} (h : c ∈ "identity".toList ∨ c ∈ "blender".toList) :
    c.isLower = true ∧ c ≠ 'k' := by
  have hall : ("identity".toList ++ "blender".toList).all (fun c => c.isLower && c != 'k') =
      true := by decide
  simpa using List.all_eq_true.mp hall c (List.mem_append.mpr h)

theorem preset?_eq_some_iff (text : String) :
    preset? (Text.lower (Text.trim text.toList)) = some m ↔
      (IsNamed text "identity" ∧ m = identity) ∨ (IsNamed text "blender" ∧ m = zUpToYUp) := by
  rw [IsNamed, IsNamed, ← Text.lower_eq_iff fun c hc => isLower_of_mem_preset (.inl hc),
    ← Text.lower_eq_iff fun c hc => isLower_of_mem_preset (.inr hc)]
  generalize Text.lower (Text.trim text.toList) = name
  unfold preset?
  constructor
  · intro h
    split at h
    · exact .inl ⟨‹_›, (Option.some.inj h).symm⟩
    · split at h
      · exact .inr ⟨‹_›, (Option.some.inj h).symm⟩
      · cases h
  · rintro (⟨rfl, rfl⟩ | ⟨rfl, rfl⟩) <;> rfl

/-- The name of a preset has no comma, so it is not split. -/
theorem length_splitOn_of_isNamed {name : String} (hname : ∀ c ∈ name.toList, c.isLower = true)
    (h : IsNamed text name) : (text.toList.splitOn ',').length = 1 := by
  have hcomma : ',' ∉ text.toList := by
    intro hmem
    rcases Text.isBlank_or_mem_trim hmem with hblank | htrim
    · exact absurd hblank (by decide)
    · have hlower := hname (Char.toLower ',') (h ▸ List.mem_map_of_mem htrim)
      exact absurd hlower (by decide)
  rw [List.splitOn_eq_singleton hcomma, List.length_singleton]

/-- A text is read as a map just if it is one of the texts of the map. -/
theorem ofText_eq_ok_iff (text : String) (m : AxisMap) : ofText text = .ok m ↔ Spells text m := by
  constructor
  · intro h
    unfold ofText at h
    split at h
    · rename_i found hpreset
      cases h
      rcases (preset?_eq_some_iff text).mp hpreset with ⟨hname, rfl⟩ | ⟨hname, rfl⟩
      · exact .identity hname
      · exact .zUpToYUp hname
    · split at h
      · rename_i x y z hsplit
        simp only [bind_eq_ok_iff, readSource_eq_ok_iff, ofSources_eq_ok_iff] at h
        obtain ⟨a, hx, b, hy, c, hz, distinct, rfl⟩ := h
        exact .sources hsplit hx hy hz distinct
      · cases h
  · intro h
    cases h with
    | identity h =>
      have hpreset := (preset?_eq_some_iff text).mpr (.inl ⟨h, rfl⟩)
      rw [ofText, hpreset]
    | zUpToYUp h =>
      have hpreset := (preset?_eq_some_iff text).mpr (.inr ⟨h, rfl⟩)
      rw [ofText, hpreset]
    | @sources x y z a b c hparts hx hy hz distinct =>
      have hnone : preset? (Text.lower (Text.trim text.toList)) = none := by
        rw [Option.eq_none_iff_forall_ne_some]
        intro found hpreset
        rcases (preset?_eq_some_iff text).mp hpreset with ⟨hname, _⟩ | ⟨hname, _⟩
        · have hlength :=
            length_splitOn_of_isNamed (fun c hc => (isLower_of_mem_preset (.inl hc)).1) hname
          simp [hparts] at hlength
        · have hlength :=
            length_splitOn_of_isNamed (fun c hc => (isLower_of_mem_preset (.inr hc)).1) hname
          simp [hparts] at hlength
      rw [ofText, hnone, hparts]
      simp only [bind_eq_ok_iff, readSource_eq_ok_iff, ofSources_eq_ok_iff]
      exact ⟨a, hx, b, hy, c, hz, distinct, rfl⟩

/-- Outside ASCII there is nothing in such a text but white space. -/
theorem Spells.isBlank_or_ascii (h : Spells text m) :
    ∀ c ∈ text.toList, Text.isBlank c = true ∨ c.toNat < 0x80 := by
  have hnamed : ∀ name : String, (∀ c ∈ name.toList, c.isLower = true) → IsNamed text name →
      ∀ c ∈ text.toList, Text.isBlank c = true ∨ c.toNat < 0x80 := by
    intro name hname h c hc
    exact (Text.isBlank_or_mem_trim hc).imp_right fun htrim =>
      Text.ascii_of_map_toLower hname h c htrim
  cases h with
  | identity h => exact hnamed _ (fun c hc => (isLower_of_mem_preset (.inl hc)).1) h
  | zUpToYUp h => exact hnamed _ (fun c hc => (isLower_of_mem_preset (.inr hc)).1) h
  | @sources x y z a b c hparts hx hy hz distinct =>
    have hpart : ∀ (part : List Char) (source : SignedAxis),
        SignedAxis.Spells (Text.trim part) source →
        ∀ d ∈ part, Text.isBlank d = true ∨ d.toNat < 0x80 :=
      fun part source hspells d hd => (Text.isBlank_or_mem_trim hd).imp_right (hspells.ascii d)
    have hcomma : Text.isBlank ',' = true ∨ (','.toNat < 0x80) := .inr (by decide)
    have htext : text.toList = x ++ ',' :: (y ++ ',' :: z) := by
      have hjoin : [','].intercalate (text.toList.splitOn ',') = text.toList :=
        List.intercalate_splitOn ','
      rw [← hjoin, hparts]
      simp only [List.intercalate_cons_cons, List.intercalate_singleton, List.append_assoc,
        List.singleton_append]
    rw [htext]
    simp only [List.forall_mem_append, List.forall_mem_cons]
    exact ⟨hpart x a hx, hcomma, hpart y b hy, hcomma, hpart z c hz⟩

end AxisMap

theorem SignedAxis.spells_text (source : SignedAxis) :
    ',' ∉ source.text.toList ∧ Spells (Text.trim source.text.toList) source := by
  obtain ⟨axis, negated⟩ := source
  have htrim : Text.trim (text ⟨axis, negated⟩).toList = (text ⟨axis, negated⟩).toList := by
    cases axis <;> cases negated <;> decide
  rw [htrim]
  refine ⟨by cases axis <;> cases negated <;> decide, ?_⟩
  cases negated with
  | false =>
    rw [text, if_neg Bool.false_ne_true, String.toList_ofList]
    exact .bare (.inl rfl)
  | true =>
    rw [text, if_pos rfl, String.toList_ofList]
    exact .minus (.inl rfl)

namespace AxisMap

/-- The text of a map is one of its texts. -/
theorem ofText_text (m : AxisMap) : ofText m.text = .ok m := by
  rw [ofText_eq_ok_iff]
  have hparts : m.text.toList.splitOn ',' =
      [m.x.text.toList, m.y.text.toList, m.z.text.toList] := by
    have htext : m.text.toList =
        [','].intercalate [m.x.text.toList, m.y.text.toList, m.z.text.toList] := by
      simp [text, List.intercalate_cons_cons, List.append_assoc]
    rw [htext]
    apply List.splitOn_intercalate
    · simp [SignedAxis.spells_text]
    · simp
  obtain ⟨x, y, z, distinct⟩ := m
  exact .sources hparts x.spells_text.2 y.spells_text.2 z.spells_text.2 distinct

theorem text_injective : Function.Injective text := by
  intro m other h
  have hread := ofText_text m
  rw [h, ofText_text] at hread
  exact (Except.ok.inj hread).symm

section Inverse

variable (m : AxisMap)

/-- The target that takes its component from an axis. -/
def targetOf (axis : Axis) : Axis :=
  if m.x.axis = axis then .x else if m.y.axis = axis then .y else .z

theorem axis_targetOf (axis : Axis) : (m.sources.get (m.targetOf axis)).axis = axis := by
  have hmem : axis ∈ [m.x.axis, m.y.axis, m.z.axis] :=
    m.perm_axes.mem_iff.mpr (by cases axis <;> decide)
  unfold targetOf
  by_cases hx : m.x.axis = axis
  · rw [if_pos hx]
    exact hx
  rw [if_neg hx]
  by_cases hy : m.y.axis = axis
  · rw [if_pos hy]
    exact hy
  rw [if_neg hy]
  rcases List.mem_cons.mp hmem with h | hmem
  · exact absurd h.symm hx
  rcases List.mem_cons.mp hmem with h | hmem
  · exact absurd h.symm hy
  · exact (List.mem_singleton.mp hmem).symm

theorem targetOf_injective : Function.Injective m.targetOf := by
  intro axis other h
  rw [← m.axis_targetOf axis, h, m.axis_targetOf other]

theorem targetOf_axis (target : Axis) : m.targetOf (m.sources.get target).axis = target :=
  m.axis_injective (m.axis_targetOf _)

theorem axis_bijective : Function.Bijective fun target => (m.sources.get target).axis :=
  ⟨m.axis_injective, fun axis => ⟨m.targetOf axis, m.axis_targetOf axis⟩⟩

/-- The map that takes each component back from its target. -/
def inverse : AxisMap :=
  ofFn (fun axis => ⟨m.targetOf axis, (m.sources.get (m.targetOf axis)).negated⟩)
    m.targetOf_injective

theorem apply_identity (p : Point Binary64) : identity.apply p = p := rfl

theorem get_sources_identity (axis : Axis) : identity.sources.get axis = ⟨axis, false⟩ := by
  cases axis <;> rfl

theorem inverse_after : m.inverse.after m = identity := by
  apply ext_sources
  intro axis
  rw [get_sources_identity]
  simp only [after, inverse, get_sources_ofFn, axis_targetOf, Bool.xor_self]

theorem after_inverse : m.after m.inverse = identity := by
  apply ext_sources
  intro axis
  rw [get_sources_identity]
  simp only [after, inverse, get_sources_ofFn, targetOf_axis, Bool.xor_self]

theorem apply_after (outer : AxisMap) (p : Point Binary64) :
    (outer.after m).apply p = outer.apply (m.apply p) := by
  simp only [apply_eq_carry]
  exact carry_after Binary64.neg_neg outer m p

theorem inverse_apply (p : Point Binary64) : m.inverse.apply (m.apply p) = p := by
  rw [← apply_after, inverse_after, apply_identity]

theorem apply_inverse (p : Point Binary64) : m.apply (m.inverse.apply p) = p := by
  rw [← apply_after, after_inverse, apply_identity]

end Inverse

/-- The texts read as maps are the names of the two presets and the triples of signed letters of
different axes, with nothing outside ASCII but white space. Each map so read is a signed
permutation, its inverse has a text too, its own text is read as itself, and a text that is read as
another map has another one. -/
theorem ofText_exact (text : String) :
    (∀ m, ofText text = .ok m ↔ Spells text m) ∧
    ∀ m, ofText text = .ok m →
      (∀ c ∈ text.toList, Text.isBlank c = true ∨ c.toNat < 0x80) ∧
      Function.Bijective (fun target => (m.sources.get target).axis) ∧
      (∃ back, ofText back.text = .ok back ∧
        ∀ p, back.apply (m.apply p) = p ∧ m.apply (back.apply p) = p) ∧
      ofText m.text = .ok m ∧
      ∀ other m', ofText other = .ok m' → (ofText text = ofText other ↔ m.text = m'.text) := by
  refine ⟨ofText_eq_ok_iff text, fun m h => ⟨?_, m.axis_bijective, ?_, m.ofText_text, ?_⟩⟩
  · exact Spells.isBlank_or_ascii ((ofText_eq_ok_iff text m).mp h)
  · exact ⟨m.inverse, m.inverse.ofText_text, fun p => ⟨m.inverse_apply p, m.apply_inverse p⟩⟩
  · intro other m' h'
    rw [h, h', Except.ok.injEq, text_injective.eq_iff]

/-- Signs, capitals and white space of several kinds. -/
theorem ofText_exact_spaced :
    ofText "\u3000-Y ,z,\t+X" = .ok ⟨⟨.y, true⟩, ⟨.z, false⟩, ⟨.x, false⟩, by decide⟩ ∧
    ∃ back, ofText back.text = .ok back ∧
      ∀ p, back.apply (apply ⟨⟨.y, true⟩, ⟨.z, false⟩, ⟨.x, false⟩, by decide⟩ p) = p :=
  have hread : ofText "\u3000-Y ,z,\t+X" =
      .ok ⟨⟨.y, true⟩, ⟨.z, false⟩, ⟨.x, false⟩, by decide⟩ := by decide +kernel
  have ⟨_, _, ⟨back, hback, hinverse⟩, _⟩ := (ofText_exact _).2 _ hread
  ⟨hread, back, hback, fun p => (hinverse p).1⟩

end AxisMap

end CollisionMesh
