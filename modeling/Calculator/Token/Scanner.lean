import Calculator.Text.Blank
import Calculator.Token

/-!
# Reading an expression into tokens

One pass from left to right. Blank characters divide tokens, a numeral takes as
many characters as it can, every other token is one character. A minus sign
begins a numeral exactly where an operand is due: at the start, after an
operator and after an opening bracket.

Results:

* `splitMagnitude_append`, `splitNumeral_append`: a numeral and the rest are the
  text they were cut from.
* `length_lexeme_le`: every token takes at least one character, so `scan` ends.
-/

namespace Calculator.Token

open Calculator.Text

/-- The complaint about a sign or a point with no digit. -/
def malformedNumber : String := "Invalid number"

/-- The complaint about a character that begins no token. -/
def strayCharacter (c : Char) : String := "Invalid char: " ++ c.toString

/-! ## Numerals -/

/-- Cuts off the longest run of digits with at most one point among them. -/
def splitMagnitude (cs : List Char) : List Char × List Char :=
  match cs.dropWhile Char.isDigit with
  | '.' :: rest =>
    (cs.takeWhile Char.isDigit ++ '.' :: rest.takeWhile Char.isDigit, rest.dropWhile Char.isDigit)
  | rest => (cs.takeWhile Char.isDigit, rest)

/-- Cuts off one minus sign, if there is one, and the magnitude after it. -/
def splitNumeral : List Char → List Char × List Char
  | '-' :: cs => ('-' :: (splitMagnitude cs).1, (splitMagnitude cs).2)
  | cs => splitMagnitude cs

/-- The token of a cut-off numeral: at least one digit has to be in it. -/
def ofNumeral (text : List Char) : Token :=
  if text.any Char.isDigit then .number (String.ofList text) else .invalid malformedNumber

theorem splitMagnitude_append (cs : List Char) :
    (splitMagnitude cs).1 ++ (splitMagnitude cs).2 = cs := by
  have cut := @List.takeWhile_append_dropWhile _ Char.isDigit cs
  unfold splitMagnitude
  split
  · next rest h =>
    rw [h] at cut
    simp [List.append_assoc, List.takeWhile_append_dropWhile, cut]
  · exact cut

theorem splitNumeral_append (cs : List Char) :
    (splitNumeral cs).1 ++ (splitNumeral cs).2 = cs := by
  unfold splitNumeral
  split
  · simp [splitMagnitude_append]
  · exact splitMagnitude_append _

/-! ## One token -/

/-- Whether a character begins a numeral, given whether a sign may stand here. -/
def startsNumeral (signed : Bool) (c : Char) : Bool :=
  c.isDigit || c == '.' || (c == '-' && signed)

/-- The token of a single character. -/
def ofSymbol (c : Char) : Token :=
  match c with
  | '(' => .opening .round
  | ')' => .closing .round
  | '[' => .opening .square
  | ']' => .closing .square
  | c =>
    match Operator.ofSymbol? c with
    | some o => .operator o
    | none => .invalid (strayCharacter c)

/-- The token that begins with the non-blank character `c`, and the text after it. -/
def lexeme (signed : Bool) (c : Char) (cs : List Char) : Token × List Char :=
  if startsNumeral signed c then
    (ofNumeral (splitNumeral (c :: cs)).1, (splitNumeral (c :: cs)).2)
  else
    (ofSymbol c, cs)

theorem splitMagnitude_ne_nil {c : Char} {cs : List Char} (h : (c.isDigit || c == '.') = true) :
    (splitMagnitude (c :: cs)).1 ≠ [] := by
  unfold splitMagnitude
  cases hd : c.isDigit
  · simp only [hd, Bool.false_or, beq_iff_eq] at h
    subst h
    simp [hd]
  · split <;> simp [hd]

theorem splitNumeral_ne_nil {signed : Bool} {c : Char} (cs : List Char)
    (h : startsNumeral signed c = true) : (splitNumeral (c :: cs)).1 ≠ [] := by
  unfold splitNumeral
  split
  · simp
  · next hsign =>
    apply splitMagnitude_ne_nil
    have : c ≠ '-' := fun hc => hsign cs (by rw [hc])
    simpa [startsNumeral, this] using h

theorem length_lexeme_le (signed : Bool) (c : Char) (cs : List Char) :
    (lexeme signed c cs).2.length ≤ cs.length := by
  unfold lexeme
  split
  · next h =>
    have cut := congrArg List.length (splitNumeral_append (c :: cs))
    have some := List.length_pos_iff.mpr (splitNumeral_ne_nil cs h)
    simp only [List.length_append, List.length_cons] at cut ⊢
    omega
  · exact Nat.le_refl _

/-! ## All tokens -/

/-- The tokens of a text; `signed` says whether an operand is due. -/
def scan (signed : Bool) : List Char → List Token
  | [] => []
  | c :: cs =>
    if isBlank c then
      scan signed cs
    else
      (lexeme signed c cs).1 :: scan (lexeme signed c cs).1.wantsOperand (lexeme signed c cs).2
termination_by cs => cs.length
decreasing_by
  · simp
  · have := length_lexeme_le signed c cs
    simp only [List.length_cons]
    omega

/-- The tokens of an expression. -/
def tokenize (source : String) : List Token :=
  scan true source.toList

end Calculator.Token
