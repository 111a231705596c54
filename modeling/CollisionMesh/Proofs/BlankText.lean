import CollisionMesh.Text.Blank
import Mathlib.Data.List.TakeWhile

/-!
# Trimming and words

What `Text.trim` and `Text.words` take from a text, without the way in which they go about it.
-/

namespace CollisionMesh.Text

set_option autoImplicit false

theorem forall_mem_dropWhile_iff (cs : List Char) :
    (∀ c ∈ cs.dropWhile isBlank, isBlank c = true) ↔ ∀ c ∈ cs, isBlank c = true := by
  constructor
  · intro h c hc
    rw [← List.takeWhile_append_dropWhile (p := isBlank) (l := cs)] at hc
    rcases List.mem_append.mp hc with hc | hc
    · exact List.mem_takeWhile_imp hc
    · exact h c hc
  · exact fun h c hc => h c ((List.dropWhile_sublist isBlank).subset hc)

/-- Only blank texts are trimmed to nothing. -/
theorem trim_eq_nil_iff (cs : List Char) : trim cs = [] ↔ ∀ c ∈ cs, isBlank c = true := by
  rw [trim, List.reverse_eq_nil_iff, List.dropWhile_eq_nil_iff, ← forall_mem_dropWhile_iff cs]
  simp only [List.mem_reverse]

theorem forall_mem_trim_iff (cs : List Char) :
    (∀ c ∈ trim cs, isBlank c = true) ↔ ∀ c ∈ cs, isBlank c = true := by
  simp only [trim, List.mem_reverse, forall_mem_dropWhile_iff]

theorem dropWhile_isBlank_of_forall {cs : List Char} (h : ∀ c ∈ cs, isBlank c = false) :
    cs.dropWhile isBlank = cs := by
  cases cs with
  | nil => rfl
  | cons c cs => rw [List.dropWhile_cons, if_neg (by simp [h c List.mem_cons_self])]

theorem trim_of_forall {cs : List Char} (h : ∀ c ∈ cs, isBlank c = false) : trim cs = cs := by
  have hreverse : ∀ c ∈ cs.reverse, isBlank c = false := fun c hc => h c (List.mem_reverse.mp hc)
  rw [trim, dropWhile_isBlank_of_forall h, dropWhile_isBlank_of_forall hreverse,
    List.reverse_reverse]

/-- A trimmed text does not start with white space. -/
theorem isBlank_head_trim {cs rest : List Char} {c : Char} (h : trim cs = c :: rest) :
    isBlank c = false := by
  have hprefix : trim cs <+: cs.dropWhile isBlank := by
    rw [trim, ← List.reverse_suffix, List.reverse_reverse]
    exact List.dropWhile_suffix isBlank
  obtain ⟨tail, htail⟩ := hprefix
  rw [h, List.cons_append] at htail
  have hhead := List.head?_dropWhile_not isBlank cs
  rw [← htail] at hhead
  simpa using hhead

theorem words_cons_of_isBlank {c : Char} (h : isBlank c = true) (cs : List Char) :
    words (c :: cs) = words cs := by
  rw [words, ← List.nil_append (c :: cs), List.splitOnP_append_cons _ _ h]
  rfl

theorem words_append_of_isBlank {c : Char} (h : isBlank c = true) {word : List Char}
    (hne : word ≠ []) (hword : ∀ d ∈ word, isBlank d = false) (cs : List Char) :
    words (word ++ c :: cs) = word :: words cs := by
  have hfull : (!word.isEmpty) = true := by simpa using hne
  rw [words, List.splitOnP_append_cons_of_forall_mem hword c h cs, List.filter_cons, if_pos hfull]
  rfl

theorem words_eq_singleton {word : List Char} (hne : word ≠ [])
    (hword : ∀ d ∈ word, isBlank d = false) : words word = [word] := by
  have hfull : (!word.isEmpty) = true := by simpa using hne
  rw [words, List.splitOnP_eq_singleton hword, List.filter_cons, if_pos hfull]
  rfl

/-- The first word of a text that does not start with white space, and the
words of what follows it. -/
theorem words_cons_of_not_isBlank {c : Char} (h : isBlank c = false) (cs : List Char) :
    ∃ word rest, c :: cs = word ++ rest ∧ words (c :: cs) = word :: words rest := by
  have hne : (c :: cs).takeWhile (fun d => !isBlank d) ≠ [] := by simp [h]
  have hword : ∀ d ∈ (c :: cs).takeWhile (fun d => !isBlank d), isBlank d = false := by
    intro d hd
    simpa using List.mem_takeWhile_imp hd
  have hrest := List.head?_dropWhile_not (fun d => !isBlank d) (c :: cs)
  have hsplit := List.takeWhile_append_dropWhile (p := fun d => !isBlank d) (l := c :: cs)
  generalize (c :: cs).takeWhile (fun d => !isBlank d) = word at hne hword hsplit
  generalize (c :: cs).dropWhile (fun d => !isBlank d) = rest at hrest hsplit
  rw [← hsplit]
  refine ⟨word, rest, rfl, ?_⟩
  cases rest with
  | nil => rw [List.append_nil, words_eq_singleton hne hword]; rfl
  | cons d tail =>
    have hd : isBlank d = true := by simpa using hrest
    rw [words_append_of_isBlank hd hne hword, words_cons_of_isBlank hd]

theorem words_eq_nil_iff (cs : List Char) : words cs = [] ↔ ∀ c ∈ cs, isBlank c = true := by
  induction cs with
  | nil => simp [words]
  | cons c cs ih =>
    cases h : isBlank c with
    | true => simp [words_cons_of_isBlank h, ih, h]
    | false =>
      obtain ⟨word, rest, _, hwords⟩ := words_cons_of_not_isBlank h cs
      simp [hwords, h]

/-- In a trimmed text, nothing but white space follows the only word. -/
theorem trim_drop_eq_nil_iff {cs word : List Char} {fields : List (List Char)}
    (h : words (trim cs) = word :: fields) :
    trim ((trim cs).drop word.length) = [] ↔ fields = [] := by
  cases htrim : trim cs with
  | nil =>
    rw [htrim] at h
    cases h
  | cons c rest =>
    obtain ⟨first, tail, hsplit, hwords⟩ := words_cons_of_not_isBlank (isBlank_head_trim htrim) rest
    rw [htrim, hwords] at h
    cases h
    rw [hsplit, List.drop_left, trim_eq_nil_iff, words_eq_nil_iff]

theorem words_append_cons {c : Char} (h : isBlank c = true) (left right : List Char) :
    words (left ++ c :: right) = words left ++ words right := by
  rw [words, List.splitOnP_append_cons _ _ h, List.filter_append]
  rfl

section Padding

variable {lead trail : List Char}

theorem words_blank_append (h : ∀ c ∈ lead, isBlank c = true) (cs : List Char) :
    words (lead ++ cs) = words cs := by
  induction lead with
  | nil => rfl
  | cons c lead ih =>
    obtain ⟨hc, hlead⟩ := List.forall_mem_cons.mp h
    rw [List.cons_append, words_cons_of_isBlank hc, ih hlead]

theorem words_append_blank (h : ∀ c ∈ trail, isBlank c = true) (cs : List Char) :
    words (cs ++ trail) = words cs := by
  cases trail with
  | nil => rw [List.append_nil]
  | cons c trail =>
    obtain ⟨hc, htrail⟩ := List.forall_mem_cons.mp h
    rw [words_append_cons hc, (words_eq_nil_iff trail).mpr htrail, List.append_nil]

theorem words_append_gap {gap : List Char} (hne : gap ≠ []) (h : ∀ c ∈ gap, isBlank c = true)
    (left right : List Char) :
    words (left ++ gap ++ right) = words left ++ words right := by
  obtain ⟨c, gap, rfl⟩ := List.exists_cons_of_ne_nil hne
  obtain ⟨hc, hgap⟩ := List.forall_mem_cons.mp h
  rw [List.append_assoc, List.cons_append, words_append_cons hc, words_blank_append hgap]

theorem exists_trim (cs : List Char) :
    ∃ lead trail, cs = lead ++ trim cs ++ trail ∧ (∀ c ∈ lead, isBlank c = true) ∧
      ∀ c ∈ trail, isBlank c = true := by
  refine ⟨cs.takeWhile isBlank, ((cs.dropWhile isBlank).reverse.takeWhile isBlank).reverse, ?_,
    fun c hc => List.mem_takeWhile_imp hc,
    fun c hc => List.mem_takeWhile_imp (List.mem_reverse.mp hc)⟩
  rw [trim, List.append_assoc, ← List.reverse_append, List.takeWhile_append_dropWhile,
    List.reverse_reverse, List.takeWhile_append_dropWhile]

theorem isBlank_or_mem_trim {cs : List Char} {c : Char} (h : c ∈ cs) :
    isBlank c = true ∨ c ∈ trim cs := by
  obtain ⟨lead, trail, hcs, hlead, htrail⟩ := exists_trim cs
  rw [hcs, List.mem_append, List.mem_append] at h
  rcases h with (h | h) | h
  · exact .inl (hlead c h)
  · exact .inr h
  · exact .inl (htrail c h)

@[simp] theorem words_trim (cs : List Char) : words (trim cs) = words cs := by
  obtain ⟨lead, trail, hcs, hlead, htrail⟩ := exists_trim cs
  have hwords := words_append_blank htrail (lead ++ trim cs)
  rw [words_blank_append hlead, ← hcs] at hwords
  exact hwords.symm

theorem trim_blank_append (h : ∀ c ∈ lead, isBlank c = true) (cs : List Char) :
    trim (lead ++ cs) = trim cs := by
  rw [trim, List.dropWhile_append_of_pos h]
  rfl

theorem trim_append_blank (h : ∀ c ∈ trail, isBlank c = true) (cs : List Char) :
    trim (cs ++ trail) = trim cs := by
  by_cases hblank : ∀ c ∈ cs, isBlank c = true
  · have hall : ∀ c ∈ cs ++ trail, isBlank c = true := List.forall_mem_append.mpr ⟨hblank, h⟩
    rw [(trim_eq_nil_iff _).mpr hall, (trim_eq_nil_iff cs).mpr hblank]
  · have hrest : (cs.dropWhile isBlank).isEmpty = false := by
      rwa [List.isEmpty_eq_false_iff, ne_eq, List.dropWhile_eq_nil_iff]
    have hreverse : ∀ c ∈ trail.reverse, isBlank c = true :=
      fun c hc => h c (List.mem_reverse.mp hc)
    rw [trim, List.dropWhile_append, hrest, if_neg Bool.false_ne_true, List.reverse_append,
      List.dropWhile_append_of_pos hreverse]
    rfl

end Padding

end CollisionMesh.Text
