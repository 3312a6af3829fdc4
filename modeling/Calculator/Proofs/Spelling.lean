import Calculator.Proofs.Grammar
import Calculator.Proofs.Numeral

/-!
# Spellings of token lists

A text spells a token list when it is the texts of the tokens one after the other,
with any number of blank characters before, between and after them. If operands and
operators alternate in the list, nothing in such a text is ambiguous, even without
blanks: a minus sign follows a numeral or a closing bracket exactly when it is an
operator, and no numeral is followed by a character that could belong to it.

Results:

* `scan_blanks`: blank characters do not matter.
* `scan_spelled`: the scanner reads the tokens of an alternating list back from each
  of its spellings.
-/

namespace Calculator

open Text (isBlank)

/-- A text of the tokens, with blank characters anywhere but inside them. -/
inductive Spelled : List Token → List Char → Prop
  | blank (blanks : List Char) : blanks.all isBlank = true → Spelled [] blanks
  | token (blanks : List Char) (t : Token) {ts : List Token} {cs : List Char} :
      blanks.all isBlank = true → Spelled ts cs →
      Spelled (t :: ts) (blanks ++ (t.text.toList ++ cs))

namespace Text

/-- A blank character does not belong to a numeral. -/
theorem not_isDigit_of_isBlank {c : Char} (h : isBlank c = true) :
    c.isDigit = false ∧ c ≠ '.' := by
  have hranges : ∀ n : Nat, (48 ≤ n ∧ n ≤ 57) ∨ n = 46 →
      (blankRanges.any fun range => range.1 ≤ n && n ≤ range.2) = false := by
    intro n hn
    simp only [blankRanges, List.any_cons, List.any_nil, Bool.or_false, Bool.or_eq_false_iff,
      Bool.and_eq_false_iff, decide_eq_false_iff_not]
    omega
  constructor
  · cases hd : c.isDigit with
    | false => rfl
    | true =>
      simp only [Char.isDigit, Bool.and_eq_true, decide_eq_true_eq] at hd
      have hn : 48 ≤ c.toNat ∧ c.toNat ≤ 57 := hd
      rw [isBlank, hranges c.toNat (.inl hn)] at h
      cases h
  · rintro rfl
    exact absurd h (by decide)

end Text

namespace Token

open Text

theorem scan_blanks {blanks : List Char} (h : blanks.all isBlank = true) (signed : Bool)
    (cs : List Char) : scan signed (blanks ++ cs) = scan signed cs := by
  induction blanks with
  | nil => rfl
  | cons c blanks ih =>
    rw [List.all_cons, Bool.and_eq_true] at h
    rw [List.cons_append, scan, if_pos h.1]
    exact ih h.2

/-- One token that begins with a character that is not blank. -/
theorem scan_lexeme {signed : Bool} {c : Char} {cs rest : List Char} {t : Token}
    (hc : isBlank c = false) (h : lexeme signed c cs = (t, rest)) :
    scan signed (c :: cs) = t :: scan t.wantsOperand rest := by
  rw [scan, hc, h]
  rfl

/-! ## What may follow -/

/-- Where an operator is due, a spelling goes on with a blank, an operator, a closing
    bracket or not at all. -/
theorem spelled_head {ts : List Token} {cs : List Char} (h : Spelled ts cs)
    (halt : alternate false ts = true) : ∀ c ∈ cs.head?, c.isDigit = false ∧ c ≠ '.' := by
  intro c hc
  cases h with
  | blank blanks hblank =>
    exact not_isDigit_of_isBlank (List.all_eq_true.mp hblank c (List.mem_of_mem_head? hc))
  | token blanks t hblank hrest =>
    cases blanks with
    | cons b blanks =>
      cases hc
      exact not_isDigit_of_isBlank (List.all_eq_true.mp hblank c List.mem_cons_self)
    | nil =>
      cases t with
      | operator op => cases op <;> cases hc <;> decide
      | closing b => cases b <;> cases hc <;> decide
      | number text => cases halt
      | opening b => cases halt
      | invalid text => cases halt

/-! ## Reading back -/

@[simp] theorem toList_text_operator (op : Operator) :
    (Token.operator op).text.toList = [op.symbol] := by
  simp [text]

@[simp] theorem toList_text_opening (b : Bracket) :
    (Token.opening b).text.toList = [b.opener] := by
  simp [text]

@[simp] theorem toList_text_closing (b : Bracket) :
    (Token.closing b).text.toList = [b.closer] := by
  simp [text]

theorem scan_number {n : Numeral} {signed : Bool} {rest : List Char} (h : n.EndsAt rest)
    (hsigned : n.negative = true → signed = true) :
    scan signed (n.chars ++ rest) = .number n.text :: scan false rest := by
  obtain ⟨c, cs, hchars, hstart⟩ := n.chars_head
  have hcs : n.chars ++ rest = c :: (cs ++ rest) := by rw [hchars, List.cons_append]
  have hblank : isBlank c = false := by
    cases hb : isBlank c with
    | false => rfl
    | true =>
      obtain ⟨hdigit, hpoint⟩ := not_isDigit_of_isBlank hb
      have hminus : c = '-' := by
        simpa [startsNumeral, hdigit, hpoint] using hstart true fun _ => rfl
      rw [hminus] at hb
      exact absurd hb (by decide)
  rw [hcs, scan_lexeme hblank (n.lexeme_eq h hsigned hcs)]
  rfl

theorem scan_operator (op : Operator) (rest : List Char) :
    scan false (op.symbol :: rest) = .operator op :: scan true rest := by
  have hblank : isBlank op.symbol = false := by cases op <;> decide
  have hlex : lexeme false op.symbol rest = (.operator op, rest) := by cases op <;> rfl
  rw [scan_lexeme hblank hlex]
  rfl

theorem scan_opening (b : Bracket) (rest : List Char) :
    scan true (b.opener :: rest) = .opening b :: scan true rest := by
  have hblank : isBlank b.opener = false := by cases b <;> decide
  have hlex : lexeme true b.opener rest = (.opening b, rest) := by cases b <;> rfl
  rw [scan_lexeme hblank hlex]
  rfl

theorem scan_closing (b : Bracket) (rest : List Char) :
    scan false (b.closer :: rest) = .closing b :: scan false rest := by
  have hblank : isBlank b.closer = false := by cases b <;> decide
  have hlex : lexeme false b.closer rest = (.closing b, rest) := by cases b <;> rfl
  rw [scan_lexeme hblank hlex]
  rfl

/-- The scanner reads an alternating list back from each of its spellings. The scanner's
    sign rule and `alternate` go through the same two states. -/
theorem scan_spelled {ts : List Token} {cs : List Char} (h : Spelled ts cs) :
    ∀ due, alternate due ts = true → (∀ text ∈ numerals ts, ∃ n : Numeral, n.text = text) →
      scan due cs = ts := by
  induction h with
  | blank blanks hblank =>
    intro due _ _
    have hscan := scan_blanks hblank due []
    rwa [List.append_nil, scan] at hscan
  | @token blanks t ts cs hblank hrest ih =>
    intro due halt hnum
    rw [scan_blanks hblank]
    cases t with
    | number text =>
      cases due with
      | false => cases halt
      | true =>
        obtain ⟨n, rfl⟩ := hnum text List.mem_cons_self
        have hends : n.EndsAt cs := by
          intro c hc
          obtain ⟨hdigit, hpoint⟩ := spelled_head hrest halt c hc
          exact ⟨hdigit, fun h => absurd h hpoint⟩
        have htext : (Token.number n.text).text.toList = n.chars := n.toList_text
        rw [htext, scan_number hends fun _ => rfl,
          ih false halt fun x hx => hnum x (List.mem_cons_of_mem _ hx)]
    | operator op =>
      cases due with
      | true => cases halt
      | false =>
        rw [toList_text_operator, List.singleton_append, scan_operator, ih true halt hnum]
    | opening b =>
      cases due with
      | false => cases halt
      | true =>
        rw [toList_text_opening, List.singleton_append, scan_opening, ih true halt hnum]
    | closing b =>
      cases due with
      | true => cases halt
      | false =>
        rw [toList_text_closing, List.singleton_append, scan_closing, ih false halt hnum]
    | invalid text => cases due <;> cases halt

end Token

end Calculator
