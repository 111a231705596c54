/-!
# Blank characters

White space in the sense of the Unicode property `White_Space`, and the two ways in which this
library cuts text at it: `trim` drops it at both ends, `words` keeps the runs between it.
-/

namespace CollisionMesh.Text

set_option autoImplicit false

/-- The code points with the property `White_Space`, as inclusive ranges. -/
def blankRanges : List (Nat × Nat) :=
  [(0x9, 0xD), (0x20, 0x20), (0x85, 0x85), (0xA0, 0xA0), (0x1680, 0x1680), (0x2000, 0x200A),
   (0x2028, 0x2029), (0x202F, 0x202F), (0x205F, 0x205F), (0x3000, 0x3000)]

/-- Whether a character is white space. Format characters such as U+200B and U+FEFF are not. -/
def isBlank (c : Char) : Bool :=
  blankRanges.any fun range => range.1 ≤ c.toNat && c.toNat ≤ range.2

/-- The text without the white space at its two ends. -/
def trim (cs : List Char) : List Char :=
  ((cs.dropWhile isBlank).reverse.dropWhile isBlank).reverse

/-- The non-empty runs of characters between white space, in order. -/
def words (cs : List Char) : List (List Char) :=
  (cs.splitOnP isBlank).filter fun run => !run.isEmpty

theorem not_isEmpty_of_mem_words {cs run : List Char} (h : run ∈ words cs) : run ≠ [] := by
  intro hnil
  simp [words, hnil] at h

end CollisionMesh.Text
