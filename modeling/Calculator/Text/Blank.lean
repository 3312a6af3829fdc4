/-!
# Blank characters

The characters that separate words of an expression: the Unicode property
`White_Space`, which holds of 25 characters.

Results:

* `isBlank_of_isWhitespace`: every character that the ASCII class counts as
  white space is blank.
* `trim` removes the blank characters at both ends of a text.
-/

namespace Calculator.Text

/-- The closed code point ranges of the blank characters, in ascending order. -/
def blankRanges : List (Nat × Nat) :=
  [(0x0009, 0x000D), (0x0020, 0x0020), (0x0085, 0x0085), (0x00A0, 0x00A0), (0x1680, 0x1680),
   (0x2000, 0x200A), (0x2028, 0x2029), (0x202F, 0x202F), (0x205F, 0x205F), (0x3000, 0x3000)]

/-- A character is blank when its code point lies in one of `blankRanges`. -/
def isBlank (c : Char) : Bool :=
  blankRanges.any fun range => range.1 ≤ c.toNat && c.toNat ≤ range.2

theorem isBlank_of_isWhitespace {c : Char} (h : c.isWhitespace = true) : isBlank c = true := by
  simp only [Char.isWhitespace, Bool.or_eq_true, decide_eq_true_eq] at h
  rcases h with ((rfl | rfl) | rfl) | rfl <;> decide

/-- The characters without the blank ones at both ends. -/
def trimChars (cs : List Char) : List Char :=
  ((cs.dropWhile isBlank).reverse.dropWhile isBlank).reverse

/-- A text without the blank characters at both ends. -/
def trim (s : String) : String :=
  String.ofList (trimChars s.toList)

theorem trimChars_nil : trimChars [] = [] := rfl

end Calculator.Text
