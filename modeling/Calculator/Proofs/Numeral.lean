import Calculator.Decimal.Reader
import Calculator.Proofs.Basic
import Calculator.Token.Scanner

/-!
# Numerals

The literals of an expression: an optional minus sign, then digits with at most one
point among them, at least one digit in all. Each of them stands for a double, and
the scanner takes it off a text as one token wherever the text does not go on with a
character that could belong to it.

Results:

* `Numeral.read?_isSome`: every numeral has a value.
* `Numeral.lexeme_eq`: the scanner reads a numeral in one piece.
-/

namespace Calculator

/-- A literal by its parts. -/
structure Numeral where
  /-- Whether there is a minus sign. -/
  negative : Bool
  /-- The digits before the point. -/
  whole : List Char
  /-- The digits after the point, if there is one. -/
  fraction : Option (List Char)
  digits : (whole ++ fraction.getD []).all Char.isDigit = true
  nonempty : whole ++ fraction.getD [] ≠ []

namespace Numeral

/-- The point and the digits after it. -/
def tail (n : Numeral) : List Char :=
  match n.fraction with
  | some ds => '.' :: ds
  | none => []

/-- The literal without its sign. -/
def magnitude (n : Numeral) : List Char := n.whole ++ n.tail

/-- The literal. -/
def chars (n : Numeral) : List Char := if n.negative then '-' :: n.magnitude else n.magnitude

/-- The literal as a text. -/
def text (n : Numeral) : String := String.ofList n.chars

theorem toList_text (n : Numeral) : n.text.toList = n.chars := String.toList_ofList

theorem isDigit_of_mem {n : Numeral} {c : Char} (hc : c ∈ n.whole ++ n.fraction.getD []) :
    c.isDigit = true :=
  List.all_eq_true.mp n.digits c hc

theorem whole_digits (n : Numeral) : ∀ c ∈ n.whole, c.isDigit = true :=
  fun _ hc => isDigit_of_mem (List.mem_append_left _ hc)

theorem fraction_digits {n : Numeral} {ds : List Char} (h : n.fraction = some ds) :
    ∀ c ∈ ds, c.isDigit = true := by
  intro c hc
  refine isDigit_of_mem (List.mem_append_right n.whole ?_)
  rw [h]
  exact hc

/-- A literal begins with a digit or a point, after its sign. -/
theorem magnitude_head (n : Numeral) :
    ∃ c cs, n.magnitude = c :: cs ∧ (c.isDigit = true ∨ c = '.') := by
  cases hw : n.whole with
  | cons c cs =>
    refine ⟨c, cs ++ n.tail, by rw [magnitude, hw, List.cons_append], .inl ?_⟩
    exact n.whole_digits c (by rw [hw]; exact List.mem_cons_self)
  | nil =>
    cases hf : n.fraction with
    | some ds => exact ⟨'.', ds, by rw [magnitude, hw, tail, hf]; rfl, .inr rfl⟩
    | none => exact absurd (by rw [hw, hf]; rfl) n.nonempty

/-- A literal begins with a minus sign exactly when it is negative. -/
theorem head?_chars (n : Numeral) : n.chars.head? = some '-' ↔ n.negative = true := by
  obtain ⟨c, cs, hmag, hc⟩ := n.magnitude_head
  have hminus : c ≠ '-' := by
    rintro rfl
    exact absurd hc (by decide)
  unfold chars
  cases n.negative with
  | true => simp
  | false => simp [hmag, hminus]

theorem takeWhile_tail (n : Numeral) : n.tail.takeWhile Char.isDigit = [] := by
  unfold tail
  split <;> rfl

/-! ## The value -/

theorem splitFraction_tail (n : Numeral) :
    Decimal.splitFraction n.tail = (n.fraction.getD [], []) := by
  unfold tail
  split
  · next ds h =>
    have hds := fraction_digits h
    have htake := Run.takeWhile_append (m := []) hds rfl
    have hdrop := Run.dropWhile_append (m := []) hds rfl
    rw [List.append_nil] at htake hdrop
    rw [Decimal.splitFraction, htake, hdrop, h]
    rfl
  · next h => rw [h]; rfl

theorem unsigned?_isSome (n : Numeral) : (Decimal.unsigned? n.magnitude).isSome = true := by
  have htake := Run.takeWhile_append n.whole_digits n.takeWhile_tail
  have hdrop := Run.dropWhile_append n.whole_digits n.takeWhile_tail
  have hmag : (Decimal.magnitude? n.magnitude).isSome = true := by
    apply Decimal.magnitude?_isSome
    · rw [magnitude, htake, hdrop, splitFraction_tail]
      have hne := n.nonempty
      cases hw : n.whole with
      | cons c cs => rfl
      | nil =>
        rw [hw, List.nil_append] at hne
        cases hf : n.fraction.getD [] with
        | nil => exact absurd hf hne
        | cons c cs => rfl
    · rw [magnitude, hdrop, splitFraction_tail]
  rw [Decimal.unsigned?]
  cases h : Decimal.magnitude? n.magnitude with
  | none => rw [h] at hmag; cases hmag
  | some x => rfl

/-- Every numeral has a value. -/
theorem read?_isSome (n : Numeral) : (Decimal.read? n.text).isSome = true := by
  have hsome := n.unsigned?_isSome
  rw [Decimal.read?, text, String.toList_ofList, chars]
  cases n.negative with
  | true =>
    simp only [if_true]
    rw [Option.isSome_map]
    exact hsome
  | false =>
    simp only [Bool.false_eq_true, if_false]
    obtain ⟨c, cs, hmag, hc⟩ := n.magnitude_head
    split
    · next h => rw [hmag] at h; cases h; exact absurd hc (by decide)
    · next h => rw [hmag] at h; cases h; exact absurd hc (by decide)
    · exact hsome

/-- The double a numeral stands for. -/
def value (n : Numeral) : Float := (Decimal.read? n.text).get n.read?_isSome

theorem read?_text (n : Numeral) : Decimal.read? n.text = some n.value :=
  (Option.some_get n.read?_isSome).symm

/-! ## In a text -/

/-- The text after a numeral cannot belong to it: it begins with no digit, and with a
    point only if the numeral has one. -/
def EndsAt (n : Numeral) (rest : List Char) : Prop :=
  ∀ c ∈ rest.head?, c.isDigit = false ∧ (c = '.' → n.fraction ≠ none)

theorem EndsAt.takeWhile {n : Numeral} {rest : List Char} (h : n.EndsAt rest) :
    rest.takeWhile Char.isDigit = [] :=
  Run.takeWhile_eq_nil fun c hc => (h c hc).1

/-- The longest magnitude that begins a text is the numeral's own. -/
theorem splitMagnitude_append {n : Numeral} {rest : List Char} (h : n.EndsAt rest) :
    Token.splitMagnitude (n.magnitude ++ rest) = (n.magnitude, rest) := by
  cases hf : n.fraction with
  | some ds =>
    have hmag : n.magnitude ++ rest = n.whole ++ '.' :: (ds ++ rest) := by
      rw [magnitude, tail, hf]
      simp
    have htake := Run.takeWhile_append (m := '.' :: (ds ++ rest)) n.whole_digits rfl
    have hdrop := Run.dropWhile_append (m := '.' :: (ds ++ rest)) n.whole_digits rfl
    unfold Token.splitMagnitude
    rw [hmag, htake, hdrop]
    simp only
    rw [Run.takeWhile_append (fraction_digits hf) h.takeWhile,
      Run.dropWhile_append (fraction_digits hf) h.takeWhile, magnitude, tail, hf]
  | none =>
    have hmag : n.magnitude = n.whole := by rw [magnitude, tail, hf, List.append_nil]
    have htake := Run.takeWhile_append n.whole_digits h.takeWhile
    have hdrop := Run.dropWhile_append n.whole_digits h.takeWhile
    unfold Token.splitMagnitude
    rw [hmag, htake, hdrop]
    split
    · next cs hcs => exact absurd hf ((h '.' rfl).2 rfl)
    · rfl

theorem splitNumeral_append {n : Numeral} {rest : List Char} (h : n.EndsAt rest) :
    Token.splitNumeral (n.chars ++ rest) = (n.chars, rest) := by
  have hcut := splitMagnitude_append h
  unfold chars
  cases n.negative with
  | true =>
    simp only [if_true, List.cons_append]
    rw [Token.splitNumeral, hcut]
  | false =>
    simp only [Bool.false_eq_true, if_false]
    obtain ⟨c, cs, hmag, hc⟩ := n.magnitude_head
    unfold Token.splitNumeral
    split
    · next h => rw [hmag, List.cons_append] at h; cases h; exact absurd hc (by decide)
    · exact hcut

theorem any_isDigit (n : Numeral) : n.chars.any Char.isDigit = true := by
  obtain ⟨c, hc⟩ := List.exists_mem_of_ne_nil _ n.nonempty
  have hmem : c ∈ n.magnitude := by
    rw [magnitude]
    rcases List.mem_append.mp hc with hw | hf
    · exact List.mem_append_left _ hw
    · refine List.mem_append_right _ ?_
      unfold tail
      cases h : n.fraction with
      | none => rw [h] at hf; cases hf
      | some ds => rw [h] at hf; exact List.mem_cons_of_mem _ hf
  rw [List.any_eq_true]
  refine ⟨c, ?_, isDigit_of_mem hc⟩
  unfold chars
  split
  · exact List.mem_cons_of_mem _ hmem
  · exact hmem

theorem ofNumeral_chars (n : Numeral) : Token.ofNumeral n.chars = .number n.text := by
  rw [Token.ofNumeral, if_pos n.any_isDigit]
  rfl

/-- A numeral begins with a character that begins numerals, provided that a sign may
    stand where it has one. -/
theorem chars_head (n : Numeral) : ∃ c cs, n.chars = c :: cs ∧
    ∀ signed, (n.negative = true → signed = true) → Token.startsNumeral signed c = true := by
  obtain ⟨c, cs, hmag, hc⟩ := n.magnitude_head
  unfold chars
  cases hneg : n.negative with
  | true =>
    refine ⟨'-', n.magnitude, rfl, fun signed hsigned => ?_⟩
    rw [hsigned rfl]
    rfl
  | false =>
    refine ⟨c, cs, hmag, fun signed _ => ?_⟩
    rcases hc with hc | rfl
    · rw [Token.startsNumeral, hc, Bool.true_or, Bool.true_or]
    · rfl

/-- The scanner reads a numeral in one piece. -/
theorem lexeme_eq {n : Numeral} {signed : Bool} {rest cs : List Char} {c : Char}
    (h : n.EndsAt rest) (hsigned : n.negative = true → signed = true)
    (hcs : n.chars ++ rest = c :: cs) : Token.lexeme signed c cs = (.number n.text, rest) := by
  obtain ⟨c', cs', hchars, hstart⟩ := n.chars_head
  have hc : c' = c := by
    rw [hchars, List.cons_append] at hcs
    exact (List.cons.inj hcs).1
  rw [Token.lexeme, ← hc, if_pos (hstart signed hsigned), hc, ← hcs, splitNumeral_append h,
    ofNumeral_chars]

end Numeral

end Calculator
