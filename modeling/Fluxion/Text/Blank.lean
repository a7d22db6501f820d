/-! # Blanks

The blank characters are those with the White_Space property of Unicode. There are twenty-five of
them, and they include every line ending.
-/

namespace Fluxion

/-- The ranges of the White_Space property, first and last character. -/
def blankRanges : List (Nat × Nat) :=
  [(0x0009, 0x000D), (0x0020, 0x0020), (0x0085, 0x0085), (0x00A0, 0x00A0), (0x1680, 0x1680),
    (0x2000, 0x200A), (0x2028, 0x2029), (0x202F, 0x202F), (0x205F, 0x205F), (0x3000, 0x3000)]

def isBlank (c : Char) : Bool :=
  blankRanges.any fun range => range.1 ≤ c.toNat && c.toNat ≤ range.2

/-- The text without its blanks, wherever they stand. -/
def removeBlanks (text : List Char) : List Char :=
  text.filter fun c => !isBlank c

/-- The text without the blanks at its two ends. -/
def trimBlanks (text : List Char) : List Char :=
  ((text.dropWhile isBlank).reverse.dropWhile isBlank).reverse

theorem not_isBlank_of_mem_removeBlanks {text : List Char} {c : Char} (h : c ∈ removeBlanks text) :
    isBlank c = false := by
  simpa using (List.mem_filter.1 h).2

theorem removeBlanks_eq_self {text : List Char} (h : ∀ c ∈ text, isBlank c = false) :
    removeBlanks text = text := by
  simp only [removeBlanks, List.filter_eq_self]
  intro c hc
  rw [h c hc]
  rfl

theorem removeBlanks_removeBlanks (text : List Char) :
    removeBlanks (removeBlanks text) = removeBlanks text := by
  simp [removeBlanks]

end Fluxion
