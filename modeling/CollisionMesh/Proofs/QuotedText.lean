import CollisionMesh.Text.Quoted
import Mathlib.Data.List.Induction

/-!
# Reading quoted texts

A reader of messages that gives the texts between quotes, with escapes undone. It gives every text
that was quoted as it was, whatever the text holds, so a message that is put together of quoted
texts and words says which they were.
-/

namespace CollisionMesh.Text

set_option autoImplicit false

/-- Where a reader of quoted texts is; what it has of a text stands last character first. -/
inductive Reading where
  | outside
  | inside (done : List Char)
  /-- Behind a backslash. -/
  | escaped (done : List Char)
  /-- In the digits of a code point, of which some have the given value. -/
  | codePoint (done : List Char) (value : Nat)

def hexDigitValue (c : Char) : Nat :=
  if c.isDigit then c.toNat - '0'.toNat else c.toNat - 'a'.toNat + 10

namespace Reading

def afterEscape (done : List Char) (c : Char) : Reading :=
  if c = 'n' then inside ('\n' :: done)
  else if c = 't' then inside ('\t' :: done)
  else if c = 'r' then inside ('\r' :: done)
  else if c = '0' then inside ('\x00' :: done)
  else if c = 'u' then codePoint done 0
  else inside (c :: done)

/-- Where a character leads, and the text that it ends, if it does. -/
def next : Reading → Char → Option (List Char) × Reading
  | outside, c => (none, if c = '"' then inside [] else outside)
  | inside done, c =>
    if c = '"' then (some done.reverse, outside)
    else (none, if c = '\\' then escaped done else inside (c :: done))
  | escaped done, c => (none, afterEscape done c)
  | codePoint done value, c =>
    (none,
      if c = '\x7b' then codePoint done value
      else if c = '\x7d' then inside (Char.ofNat value :: done)
      else codePoint done (16 * value + hexDigitValue c))

/-- The texts that are read from some state on. -/
def texts : Reading → List Char → List (List Char)
  | _, [] => []
  | state, c :: cs => (state.next c).1.toList ++ (state.next c).2.texts cs

variable {done : List Char}

/-- A character that ends no text only changes the state. -/
theorem texts_cons {state : Reading} (target : Reading) {c : Char}
    (h : state.next c = (none, target)) (cs : List Char) :
    state.texts (c :: cs) = target.texts cs := by
  rw [texts, h]
  rfl

theorem texts_outside_append {words : List Char} (h : '"' ∉ words) (cs : List Char) :
    outside.texts (words ++ cs) = outside.texts cs := by
  induction words with
  | nil => rfl
  | cons c words ih =>
    rw [List.mem_cons, not_or] at h
    have hnext : outside.next c = (none, outside) := by rw [next, if_neg (Ne.symm h.1)]
    rw [List.cons_append, texts_cons outside hnext, ih h.2]

theorem hexDigitValue_digitChar {digit : Nat} (h : digit < 16) :
    hexDigitValue digit.digitChar = digit ∧ digit.digitChar ≠ '\x7b' ∧
    digit.digitChar ≠ '\x7d' := by
  have hall : ∀ digit < 16, hexDigitValue digit.digitChar = digit ∧ digit.digitChar ≠ '\x7b' ∧
      digit.digitChar ≠ '\x7d' := by
    decide
  exact hall digit h

theorem texts_codePoint_digit {digit : Nat} (h : digit < 16) (value : Nat) (cs : List Char) :
    (codePoint done value).texts (digit.digitChar :: cs) =
      (codePoint done (16 * value + digit)).texts cs := by
  obtain ⟨hvalue, hopen, hclose⟩ := hexDigitValue_digitChar h
  apply texts_cons (codePoint done (16 * value + digit))
  rw [next, if_neg hopen, if_neg hclose, hvalue]

/-- The digits of a number are read back as the number. -/
theorem texts_codePoint_toDigits (number : Nat) (cs : List Char) :
    (codePoint done 0).texts (Nat.toDigits 16 number ++ cs) = (codePoint done number).texts cs := by
  induction number using Nat.strongRecOn generalizing cs with
  | ind number ih =>
    by_cases hsmall : number < 16
    · rw [Nat.toDigits_of_lt_base hsmall, List.singleton_append, texts_codePoint_digit hsmall,
        Nat.mul_zero, Nat.zero_add]
    · have hlast : number % 16 < 16 := Nat.mod_lt number (by decide)
      have hsplit : Nat.toDigits 16 (number / 16) ++ [(number % 16).digitChar] =
          Nat.toDigits 16 number := by
        rw [← Nat.toDigits_of_lt_base hlast,
          Nat.toDigits_append_toDigits (by decide) (by omega) hlast, Nat.div_add_mod]
      rw [← hsplit, List.append_assoc, ih (number / 16) (by omega), List.singleton_append,
        texts_codePoint_digit hlast, Nat.div_add_mod]

theorem texts_codePointEscape (c : Char) (cs : List Char) :
    (inside done).texts (codePointEscape c ++ cs) = (inside (c :: done)).texts cs := by
  have hclosed : codePointEscape c ++ cs =
      '\\' :: 'u' :: '\x7b' :: (Nat.toDigits 16 c.toNat ++ '\x7d' :: cs) := by
    simp [codePointEscape]
  have hend : (codePoint done c.toNat).next '\x7d' = (none, inside (c :: done)) := by
    rw [next, if_neg (by decide), if_pos rfl, Char.ofNat_toNat]
  rw [hclosed, texts_cons (escaped done) rfl, texts_cons (codePoint done 0) rfl,
    texts_cons (codePoint done 0) rfl, texts_codePoint_toDigits, texts_cons _ hend]

/-- A character is written with a letter behind a backslash, as itself or as its code point. -/
theorem escapeChar_cases (c : Char) :
    (∃ letter, escapeChar c = ['\\', letter] ∧
      ∀ done, afterEscape done letter = inside (c :: done)) ∨
      (escapeChar c = [c] ∧ c ≠ '"' ∧ c ≠ '\\') ∨ escapeChar c = codePointEscape c := by
  by_cases h : c ∈ ['"', '\\', '\n', '\t', '\r', '\x00']
  · refine .inl ?_
    simp only [List.mem_cons, List.not_mem_nil, or_false] at h
    rcases h with rfl | rfl | rfl | rfl | rfl | rfl <;> exact ⟨_, rfl, fun _ => rfl⟩
  · refine .inr ?_
    simp only [List.mem_cons, List.not_mem_nil, or_false, not_or] at h
    obtain ⟨hquote, hbackslash, hfeed, htab, hreturn, hnul⟩ := h
    rw [escapeChar, if_neg hquote, if_neg hbackslash, if_neg hfeed, if_neg htab, if_neg hreturn,
      if_neg hnul]
    by_cases hvisible : isVisible c = true
    · exact .inl ⟨if_pos hvisible, hquote, hbackslash⟩
    · exact .inr (if_neg hvisible)

/-- Behind an escaped character the reader has that character, and is in the text still. -/
theorem texts_escapeChar (c : Char) (cs : List Char) :
    (inside done).texts (escapeChar c ++ cs) = (inside (c :: done)).texts cs := by
  rcases escapeChar_cases c with ⟨letter, hescape, hletter⟩ | ⟨hself, hquote, hbackslash⟩ | hcode
  · have hnext : (escaped done).next letter = (none, inside (c :: done)) := by rw [next, hletter]
    rw [hescape, List.cons_append, List.singleton_append, texts_cons (escaped done) rfl,
      texts_cons _ hnext]
  · have hnext : (inside done).next c = (none, inside (c :: done)) := by
      rw [next, if_neg hquote, if_neg hbackslash]
    rw [hself, List.singleton_append, texts_cons _ hnext]
  · rw [hcode, texts_codePointEscape]

theorem texts_flatMap_escapeChar (text cs : List Char) :
    (inside done).texts (text.flatMap escapeChar ++ cs) =
      (inside (text.reverse ++ done)).texts cs := by
  induction text generalizing done with
  | nil => rfl
  | cons c text ih =>
    rw [List.flatMap_cons, List.append_assoc, texts_escapeChar, ih, List.reverse_cons,
      List.append_assoc, List.singleton_append]

theorem texts_quote (text : String) (cs : List Char) :
    outside.texts ((quote text).toList ++ cs) = text.toList :: outside.texts cs := by
  have hquoted : (quote text).toList ++ cs =
      '"' :: (text.toList.flatMap escapeChar ++ '"' :: cs) := by
    simp [quote]
  have hend : (inside text.toList.reverse).next '"' = (some text.toList, outside) := by
    rw [next, if_pos rfl, List.reverse_reverse]
  rw [hquoted, texts_cons (inside []) rfl, texts_flatMap_escapeChar, List.append_nil, texts, hend]
  rfl

end Reading

/-- The texts that stand in quotes in a message, as they read. -/
def quotations (message : String) : List String :=
  (Reading.outside.texts message.toList).map String.ofList

theorem quotations_append {words : String} (h : '"' ∉ words.toList) (message : String) :
    quotations (words ++ message) = quotations message := by
  rw [quotations, String.toList_append, Reading.texts_outside_append h]
  rfl

theorem quotations_quote_append (text message : String) :
    quotations (quote text ++ message) = text :: quotations message := by
  rw [quotations, String.toList_append, Reading.texts_quote, List.map_cons, String.ofList_toList]
  rfl

theorem quotations_quote (text : String) : quotations (quote text) = [text] := by
  have hempty : quotations "" = [] := rfl
  rw [← String.append_empty (s := quote text), quotations_quote_append, hempty]

theorem quotations_intercalate_append {separator : String} (h : '"' ∉ separator.toList)
    (texts : List String) (message : String) :
    quotations (separator.intercalate (texts.map quote) ++ message) =
      texts ++ quotations message := by
  induction texts with
  | nil => rw [List.map_nil, String.intercalate_nil, String.empty_append, List.nil_append]
  | cons text texts ih =>
    cases texts with
    | nil =>
      rw [List.map_singleton, String.intercalate_singleton, quotations_quote_append,
        List.singleton_append]
    | cons other texts =>
      rw [List.map_cons, List.map_cons, String.intercalate_cons_cons, String.append_assoc,
        String.append_assoc, quotations_quote_append, quotations_append h, ← List.map_cons,
        ih, ← List.cons_append]

end CollisionMesh.Text
