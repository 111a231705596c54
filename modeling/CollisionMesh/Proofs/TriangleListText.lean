import CollisionMesh.TriangleList.Reader
import Mathlib.Data.List.Forall2
import Mathlib.Data.List.TakeWhile

/-!
# Written lists are read back

A list of triangles is written as brackets around values, level by level. `Lexes` says which tokens
a written value stands for, and it carries over from the values to the brackets around them. So a
list is read back as it was written, provided that each of its numbers is.
-/

namespace CollisionMesh.TriangleList

set_option autoImplicit false

/-- Whether the text of a number is read back as that number. -/
def ReadsBack (x : Binary64) : Prop := readNumber? (numberText x) = some x

instance (x : Binary64) : Decidable (ReadsBack x) := inferInstanceAs (Decidable (_ = _))

/-- Whether a text cannot make a number before it longer. -/
def Bounded (rest : List Char) : Prop := ∀ c ∈ rest.head?, isNumberChar c = false

/-- Whether a text stands for certain tokens, whatever follows it. -/
def Lexes (text : List Char) (ts : List Token) : Prop :=
  ∀ rest, Bounded rest → tokens (text ++ rest) = (tokens rest).map (ts ++ ·)

theorem isFinite_of_readsBack {x : Binary64} (h : ReadsBack x) : x.isFinite = true := by
  unfold ReadsBack readNumber? at h
  split at h
  split at h
  · exact (Option.filter_eq_some_iff.mp h).2
  · cases h

theorem tokens_nil : tokens [] = some [] := by rw [tokens]

theorem tokens_blank {c : Char} (h : isBlank c = true) (cs : List Char) :
    tokens (c :: cs) = tokens cs := by
  rw [tokens, if_pos h]

theorem tokens_opening (cs : List Char) :
    tokens ('[' :: cs) = (tokens cs).map (Token.opening :: ·) := by
  rw [tokens]
  rfl

theorem tokens_closing (cs : List Char) :
    tokens (']' :: cs) = (tokens cs).map (Token.closing :: ·) := by
  rw [tokens]
  rfl

theorem tokens_comma (cs : List Char) :
    tokens (',' :: cs) = (tokens cs).map (Token.comma :: ·) := by
  rw [tokens]
  rfl

theorem not_special_of_isNumberChar {c : Char} (h : isNumberChar c = true) :
    isBlank c = false ∧ c ≠ '[' ∧ c ≠ ']' ∧ c ≠ ',' := by
  refine ⟨?_, ?_, ?_, ?_⟩
  · by_contra hblank
    simp only [isBlank, Bool.not_eq_false, Bool.or_eq_true, beq_iff_eq] at hblank
    rcases hblank with ((rfl | rfl) | rfl) | rfl <;> simp [isNumberChar] at h
  all_goals
    rintro rfl
    simp [isNumberChar] at h

theorem lexes_number {lexeme : List Char} {x : Binary64}
    (hchars : ∀ c ∈ lexeme, isNumberChar c = true) (h : readNumber? lexeme = some x) :
    Lexes lexeme [.number x] := by
  intro rest hrest
  cases lexeme with
  | nil => cases h
  | cons c tail =>
    have hc : isNumberChar c = true := hchars c List.mem_cons_self
    have htail : ∀ d ∈ tail, isNumberChar d = true :=
      fun d hd => hchars d (List.mem_cons_of_mem c hd)
    obtain ⟨hblank, hopening, hclosing, hcomma⟩ := not_special_of_isNumberChar hc
    have htake : (tail ++ rest).takeWhile isNumberChar = tail := by
      rw [List.takeWhile_append_of_pos htail]
      cases rest with
      | nil => simp
      | cons d rest => simp [hrest d rfl]
    have hdrop : (tail ++ rest).dropWhile isNumberChar = rest := by
      rw [List.dropWhile_append_of_pos htail]
      cases rest with
      | nil => rfl
      | cons d rest => simp [hrest d rfl]
    rw [List.cons_append, tokens, if_neg (by simp [hblank]), if_neg hopening, if_neg hclosing,
      if_neg hcomma, if_pos hc, htake, hdrop, h]
    rfl

section Numbers

theorem isNumberChar_of_isDigit {c : Char} (h : c.isDigit = true) : isNumberChar c = true := by
  simp [isNumberChar, h]

theorem isNumberChar_toDigits {n : Nat} {c : Char} (h : c ∈ Nat.toDigits 10 n) :
    isNumberChar c = true :=
  isNumberChar_of_isDigit (Nat.isDigit_of_mem_toDigits (by decide) (by decide) h)

theorem isNumberChar_signedText {n : Int} {c : Char} (h : c ∈ signedText n) :
    isNumberChar c = true := by
  unfold signedText at h
  split at h
  all_goals
    rcases List.mem_cons.mp h with rfl | h
    · decide
    · exact isNumberChar_toDigits h

theorem isNumberChar_positionalText {digits : List Char}
    (hdigits : ∀ c ∈ digits, isNumberChar c = true) (whole : Int) {c : Char}
    (h : c ∈ positionalText digits whole) : isNumberChar c = true := by
  have hzeros {n : Nat} (h : c ∈ List.replicate n '0') : isNumberChar c = true := by
    rw [(List.mem_replicate.mp h).2]
    decide
  unfold positionalText at h
  split at h
  · simp only [List.cons_append, List.mem_cons, List.mem_append] at h
    rcases h with rfl | rfl | h | h
    · decide
    · decide
    · exact hzeros h
    · exact hdigits c h
  · simp only [List.append_assoc, List.mem_append, List.mem_cons] at h
    rcases h with h | h | rfl | h
    · exact hdigits c (List.mem_of_mem_take h)
    · exact hzeros h
    · decide
    · split at h
      · rw [List.mem_singleton.mp h]
        decide
      · exact hdigits c (List.mem_of_mem_drop h)

theorem isNumberChar_exponentialText {digits : List Char}
    (hdigits : ∀ c ∈ digits, isNumberChar c = true) (exponent : Int) {c : Char}
    (h : c ∈ exponentialText digits exponent) : isNumberChar c = true := by
  unfold exponentialText at h
  rcases List.mem_append.mp h with h | h
  · split at h
    · rcases List.mem_cons.mp h with rfl | h
      · exact hdigits _ List.mem_cons_self
      · rcases List.mem_cons.mp h with rfl | h
        · decide
        · exact hdigits c (List.mem_cons_of_mem _ h)
    · exact hdigits c h
  · rcases List.mem_cons.mp h with rfl | h
    · decide
    · exact isNumberChar_signedText h

theorem isNumberChar_magnitudeText {digits : Nat} {exponent : Int} {c : Char}
    (h : c ∈ magnitudeText digits exponent) : isNumberChar c = true := by
  have hsignificant : ∀ d ∈ ((Nat.toDigits 10 digits).reverse.dropWhile fun c => c == '0').reverse,
      isNumberChar d = true := by
    intro d hd
    have hd := (List.dropWhile_sublist _).subset (List.mem_reverse.mp hd)
    exact isNumberChar_toDigits (List.mem_reverse.mp hd)
  simp only [magnitudeText] at h
  split at h
  · exact isNumberChar_positionalText hsignificant _ h
  · exact isNumberChar_exponentialText hsignificant _ h

theorem isNumberChar_numberText {x : Binary64} (hx : x.isFinite = true) {c : Char}
    (h : c ∈ numberText x) : isNumberChar c = true := by
  cases x with
  | nan => cases hx
  | infinite negative => cases hx
  | finite negative code =>
    have hmagnitude : ∀ d ∈ (if code.val = 0 then ['0', '.', '0']
        else magnitudeText (Shortest.ofCode code).1 (Shortest.ofCode code).2),
        isNumberChar d = true := by
      intro d hd
      split at hd
      · simp only [List.mem_cons, List.not_mem_nil, or_false] at hd
        rcases hd with rfl | rfl | rfl <;> decide
      · exact isNumberChar_magnitudeText hd
    simp only [numberText] at h
    generalize (if code.val = 0 then ['0', '.', '0']
      else magnitudeText (Shortest.ofCode code).1 (Shortest.ofCode code).2) = magnitude
      at h hmagnitude
    split at h
    · rcases List.mem_cons.mp h with rfl | h
      · decide
      · exact hmagnitude c h
    · exact hmagnitude c h

theorem lexes_numberText {x : Binary64} (h : ReadsBack x) : Lexes (numberText x) [.number x] :=
  lexes_number (fun _ hc => isNumberChar_numberText (isFinite_of_readsBack h) hc) h

end Numbers

section Brackets

theorem bounded_cons {c : Char} (h : isNumberChar c = false) (rest : List Char) :
    Bounded (c :: rest) := by
  rintro d ⟨⟩
  exact h

theorem tokens_replicate_blank (n : Nat) (rest : List Char) :
    tokens (List.replicate n ' ' ++ rest) = tokens rest := by
  induction n with
  | zero => rfl
  | succ n ih => rw [List.replicate_succ, List.cons_append, tokens_blank (by decide), ih]

/-- Values with commas between them, each on a line of its own, up to the end of the last line. -/
theorem lexes_intercalate {values : List (List Char)} {ts : List (List Token)} (indent : Nat)
    (h : List.Forall₂ Lexes values ts) {rest : List Char} (hne : values ≠ [])
    (hrest : Bounded rest) :
    tokens ([',', '\n'].intercalate
        (values.map fun value => List.replicate indent ' ' ++ value) ++ rest) =
      (tokens rest).map ([Token.comma].intercalate ts ++ ·) := by
  induction h with
  | nil => exact absurd rfl hne
  | @cons value t values ts hvalue htail ih =>
    cases htail with
    | nil =>
      simp only [List.map_cons, List.map_nil, List.intercalate_singleton, List.append_assoc,
        tokens_replicate_blank]
      exact hvalue rest hrest
    | @cons second u values ts hsecond htail =>
      have hih := ih (by simp)
      simp only [List.map_cons, List.intercalate_cons_cons, List.append_assoc, List.cons_append,
        List.nil_append, tokens_replicate_blank] at hih ⊢
      rw [hvalue _ (bounded_cons (by decide) _), tokens_comma, tokens_blank (by decide), hih]
      cases tokens rest <;> rfl

theorem lexes_bracketed {values : List (List Char)} {ts : List (List Token)} (level : Nat)
    (h : List.Forall₂ Lexes values ts) :
    Lexes (bracketed level values) (.opening :: [Token.comma].intercalate ts ++ [.closing]) := by
  intro rest _
  cases h with
  | nil =>
    change tokens ('[' :: ']' :: rest) = _
    rw [tokens_opening, tokens_closing]
    cases tokens rest <;> rfl
  | @cons value t values ts hvalue htail =>
    have hclosing : tokens ('\n' :: (List.replicate (2 * level) ' ' ++ ']' :: rest)) =
        (tokens rest).map (Token.closing :: ·) := by
      rw [tokens_blank (by decide), tokens_replicate_blank, tokens_closing]
    have hitems := lexes_intercalate (2 * (level + 1)) (.cons hvalue htail) (by simp)
      (bounded_cons (c := '\n') (by decide) (List.replicate (2 * level) ' ' ++ ']' :: rest))
    simp only [bracketed, List.cons_append, List.append_assoc, List.nil_append]
    rw [tokens_opening, tokens_blank (by decide), hitems, hclosing]
    cases tokens rest <;> simp

end Brackets

section Shapes

def pointTokens (p : Point Binary64) : List Token :=
  .opening :: [Token.comma].intercalate (p.toList.map fun x => [Token.number x]) ++ [.closing]

def cornersTokens (t : Corners Binary64) : List Token :=
  .opening :: [Token.comma].intercalate (t.toList.map pointTokens) ++ [.closing]

theorem lexes_pointText {p : Point Binary64} (h : ∀ x ∈ p.toList, ReadsBack x) :
    Lexes (pointText p) (pointTokens p) := by
  apply lexes_bracketed
  rw [List.forall₂_map_left_iff, List.forall₂_map_right_iff, List.forall₂_same]
  exact fun x hx => lexes_numberText (h x hx)

theorem lexes_cornersText {t : Corners Binary64} (h : ∀ x ∈ t.components, ReadsBack x) :
    Lexes (cornersText t) (cornersTokens t) := by
  apply lexes_bracketed
  rw [List.forall₂_map_left_iff, List.forall₂_map_right_iff, List.forall₂_same]
  exact fun p hp => lexes_pointText fun x hx => h x (List.mem_flatMap.mpr ⟨p, hp, hx⟩)

theorem readCorners?_cornersTokens (t : Corners Binary64) (rest : List Token) :
    readCorners? (cornersTokens t ++ rest) = some (t, rest) := rfl

theorem readItems?_of_closing {ts : List Token} {t : Corners Binary64}
    (h : readCorners? ts = some (t, [.closing])) : readItems? ts = some [t] := by
  rw [readItems?]
  split
  · rename_i hread
    rw [h] at hread
    cases hread
    rfl
  · rename_i hread
    rw [h] at hread
    cases hread
  · rename_i hclosing _
    exact absurd h (hclosing t)

theorem readItems?_of_comma {ts rest : List Token} {t : Corners Binary64}
    (h : readCorners? ts = some (t, .comma :: rest)) :
    readItems? ts = (readItems? rest).map (t :: ·) := by
  rw [readItems?]
  split
  · rename_i hread
    rw [h] at hread
    cases hread
  · rename_i hread
    rw [h] at hread
    cases hread
    rfl
  · rename_i hcomma
    exact absurd h (hcomma t rest)

theorem readItems?_intercalate (t : Corners Binary64) (ts : List (Corners Binary64)) :
    readItems? ([Token.comma].intercalate ((t :: ts).map cornersTokens) ++ [.closing]) =
      some (t :: ts) := by
  induction ts generalizing t with
  | nil =>
    rw [List.map_singleton, List.intercalate_singleton]
    exact readItems?_of_closing (readCorners?_cornersTokens t _)
  | cons u ts ih =>
    rw [List.map_cons, List.map_cons, List.intercalate_cons_cons, ← List.map_cons,
      List.append_assoc, List.append_assoc, List.singleton_append,
      readItems?_of_comma (readCorners?_cornersTokens t _), ih]
    rfl

theorem readList?_eq (ts : List (Corners Binary64)) :
    readList? (.opening :: [Token.comma].intercalate (ts.map cornersTokens) ++ [.closing]) =
      some ts := by
  cases ts with
  | nil => rfl
  | cons t ts =>
    have hitems := readItems?_intercalate t ts
    have hhead : ∃ tail,
        [Token.comma].intercalate ((t :: ts).map cornersTokens) ++ [.closing] =
          .opening :: tail := by
      cases ts with
      | nil => exact ⟨_, rfl⟩
      | cons u ts => exact ⟨_, rfl⟩
    obtain ⟨tail, htail⟩ := hhead
    rw [htail] at hitems
    rw [List.cons_append, htail]
    exact hitems

end Shapes

/-- A list whose numbers are read back is read back as a whole. -/
theorem ofText?_text {ts : List (Corners Binary64)}
    (h : ∀ t ∈ ts, ∀ x ∈ t.components, ReadsBack x) : ofText? (text ts) = some ts := by
  have hlexes : Lexes (bracketed 0 (ts.map cornersText))
      (.opening :: [Token.comma].intercalate (ts.map cornersTokens) ++ [.closing]) := by
    apply lexes_bracketed
    rw [List.forall₂_map_left_iff, List.forall₂_map_right_iff, List.forall₂_same]
    exact fun t ht => lexes_cornersText (h t ht)
  have htokens := hlexes [] (by rintro c ⟨⟩)
  rw [tokens_nil, List.append_nil, Option.map_some, List.append_nil] at htokens
  rw [ofText?, text, String.toList_ofList, htokens, Option.bind_some, readList?_eq]

end CollisionMesh.TriangleList
