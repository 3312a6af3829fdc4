import Calculator.Calculation
import Calculator.Proofs.Postorder
import Calculator.Proofs.Spelling
import Calculator.Proofs.Value

/-!
# Calculations of well-formed expressions

The scanner, the yard and the evaluation composed: whatever brackets and blanks an
expression is written with, its calculation gives the recursive value of its tree,
with the number of operands that wait for an operator kept below the limit.

Results:

* `Derives.tokenize_eq`: the text of a well-formed expression is read back into the
  tokens it was written from.
* `run_eq_value`: the calculation has the value of the tree, or its fault.
* `run_spelled`: the same as two equivalences.
-/

namespace Calculator

/-- Reads a numeral at a height, which has to be below the limit. -/
def Numeral.operand (limit height : Nat) (n : Numeral) : Except ValueFault Float :=
  if limit ≤ height then .error (.stackOverflow limit) else .ok n.value

theorem Numeral.operand_text (limit height : Nat) (n : Numeral) :
    Evaluation.operand (some limit) height n.text = n.operand limit height := by
  rw [Evaluation.operand, n.read?_text]
  rfl

theorem Tree.value_numerals (limit height : Nat) (t : Tree Numeral) :
    (t.map Numeral.text).value (Evaluation.operand (some limit)) height =
      t.value (Numeral.operand limit) height := by
  rw [Tree.value_map]
  simp only [Numeral.operand_text]

/-- The tokens of a text that spells a well-formed expression over numerals. -/
theorem Derives.tokenize_eq {w : List Token} {t : Tree Numeral} {s : String}
    (h : Derives .expression w (t.map Numeral.text)) (hs : Spelled w s.toList) :
    Token.tokenize s = w := by
  refine Token.scan_spelled hs true h.alternate ?_
  intro text htext
  rw [h.numerals_eq, Tree.leaves_map] at htext
  obtain ⟨n, _, hn⟩ := List.mem_map.mp htext
  exact ⟨n, hn⟩

namespace Calculation

/-! ## The parts of a calculation -/

theorem checkLength_of_le {limits : Limits} {source : String}
    (h : source.length ≤ limits.inputLength) : checkLength limits source = .ok () := by
  rw [checkLength, if_neg (by omega)]

/-- A calculation whose tokens can be ordered is an evaluation. -/
theorem run_of_arrange {options : Options} {source : String} {ordered : List Token}
    (hfits : source.length ≤ options.limits.inputLength)
    (h : Yard.arrange (Token.tokenize source) = .ok ordered) :
    run options source =
      ((Evaluation.evaluate (some options.limits.operands) ordered).mapError Fault.value).map
        fun value => { tokens := Token.tokenize source, ordered, value } := by
  have horder : order (Token.tokenize source) = .ok ordered := by rw [order, h]; rfl
  have harrange : arrange options source = .ok ⟨Token.tokenize source, ordered⟩ := by
    rw [arrange, checkLength_of_le hfits, Except.ok_bind]
    simp only
    rw [horder]
    rfl
  rw [run, harrange, Except.ok_bind, evaluate]
  cases Evaluation.evaluate (some options.limits.operands) ordered <;> rfl

/-- A calculation whose tokens cannot be ordered has the fault of their order. -/
theorem run_of_arrange_error {options : Options} {source : String} {e : OrderFault}
    (hfits : source.length ≤ options.limits.inputLength)
    (h : Yard.arrange (Token.tokenize source) = .error e) :
    run options source = .error (.ofOrder e) := by
  have horder : order (Token.tokenize source) = .error (.ofOrder e) := by rw [order, h]; rfl
  rw [run, arrange, checkLength_of_le hfits, Except.ok_bind]
  simp only [horder, Except.error_bind]

/-- A source that is too long is not read. -/
theorem run_of_lt_length {options : Options} {source : String}
    (h : options.limits.inputLength < source.length) :
    run options source = .error (.inputTooLong source.length options.limits.inputLength) := by
  rw [run, arrange, checkLength, if_pos h, Except.error_bind, Except.error_bind]

/-- A calculation that succeeds has passed all of its parts. -/
theorem parts_of_run {options : Options} {source : String} {out : Outcome}
    (h : run options source = .ok out) :
    source.length ≤ options.limits.inputLength ∧
    Yard.arrange (Token.tokenize source) = .ok out.ordered ∧
    Evaluation.evaluate (some options.limits.operands) out.ordered = .ok out.value := by
  rw [run, Except.bind_eq_ok_iff] at h
  obtain ⟨arranged, harrange, hrest⟩ := h
  obtain ⟨value, hvalue, hout⟩ := Except.bind_eq_ok_iff.mp hrest
  cases hout
  rw [arrange, Except.bind_eq_ok_iff] at harrange
  obtain ⟨_, hlength, horder⟩ := harrange
  obtain ⟨ordered, hordered, harranged⟩ := Except.bind_eq_ok_iff.mp horder
  cases harranged
  refine ⟨?_, Except.mapError_eq_ok_iff.mp hordered, Except.mapError_eq_ok_iff.mp hvalue⟩
  unfold checkLength at hlength
  split at hlength
  · cases hlength
  · omega

/-! ## Well-formed expressions -/

/-- The calculation of an expression's spelling gives what its tree gives. -/
theorem run_eq_value {w : List Token} {t : Tree Numeral} {s : String} {options : Options}
    (h : Derives .expression w (t.map Numeral.text)) (hs : Spelled w s.toList)
    (hfits : s.length ≤ options.limits.inputLength) :
    (run options s).map Outcome.value =
      (t.value (Numeral.operand options.limits.operands) 0).mapError Fault.value := by
  have harrange : Yard.arrange (Token.tokenize s) = .ok (t.map Numeral.text).postorder := by
    rw [h.tokenize_eq hs, h.arrange_eq]
  rw [run_of_arrange hfits harrange, Evaluation.evaluate_postorder, Tree.value_numerals]
  cases t.value (Numeral.operand options.limits.operands) 0 <;> rfl

/-- **Calculations of well-formed expressions.** Let `t` be a tree over numerals, `w` any
    derivation of it as an infix expression, and `s` any text of `w` with blank characters
    anywhere between the tokens, within the length limit. Then the calculation of `s` has
    the value `x` exactly when the tree has, and fails in its evaluation with `e` exactly
    when the tree does. -/
theorem run_spelled {w : List Token} {t : Tree Numeral} {s : String} {options : Options}
    (h : Derives .expression w (t.map Numeral.text)) (hs : Spelled w s.toList)
    (hfits : s.length ≤ options.limits.inputLength) :
    (∀ x, (∃ out, run options s = .ok out ∧ out.value = x) ↔
      t.value (Numeral.operand options.limits.operands) 0 = .ok x) ∧
    (∀ e, run options s = .error (.value e) ↔
      t.value (Numeral.operand options.limits.operands) 0 = .error e) := by
  have hvalue := run_eq_value h hs hfits
  cases hrun : run options s with
  | ok out =>
    cases ht : t.value (Numeral.operand options.limits.operands) 0 with
    | ok y =>
      rw [hrun, ht] at hvalue
      have hy : out.value = y := Except.ok.inj hvalue
      simp [hy]
    | error e => rw [hrun, ht] at hvalue; cases hvalue
  | error fault =>
    cases ht : t.value (Numeral.operand options.limits.operands) 0 with
    | ok y => rw [hrun, ht] at hvalue; cases hvalue
    | error e =>
      rw [hrun, ht] at hvalue
      have he : fault = .value e := Except.error.inj hvalue
      simp [he]

/-- Brackets without a blank, a minus sign that is an operator beside two that are not. -/
theorem run_spelled_quotient :
    let minusOne : Numeral := ⟨true, ['1'], none, by decide, by decide⟩
    let half : Numeral := ⟨false, [], some ['5'], by decide, by decide⟩
    let t : Tree Numeral := .node .sub (.leaf minusOne) (.node .div (.leaf half) (.leaf minusOne))
    let w : List Token := [.opening .square, .number "-1", .closing .square, .operator .sub,
      .number ".5", .operator .div, .number "-1"]
    let s := "[-1]-.5\t/ -1"
    Derives .expression w (t.map Numeral.text) ∧ Spelled w s.toList ∧
    s.length ≤ ({} : Options).limits.inputLength ∧
    (∀ x, (∃ out, run {} s = .ok out ∧ out.value = x) ↔
      t.value (Numeral.operand 1024) 0 = .ok x) ∧
    (∀ e, run {} s = .error (.value e) ↔ t.value (Numeral.operand 1024) 0 = .error e) := by
  intro minusOne half t w s
  have h : Derives .expression w (t.map Numeral.text) :=
    .sum (.inr rfl) (Derives.bracketed .square (Derives.number "-1").toExpression).toExpression
      (.product (.inr rfl) (.term (.factor (.number ".5"))) (.factor (.number "-1")))
  have hspelled := Spelled.token [] (.opening .square) rfl <| .token [] (.number "-1") rfl <|
    .token [] (.closing .square) rfl <| .token [] (.operator .sub) rfl <|
    .token [] (.number ".5") rfl <| .token ['\t'] (.operator .div) rfl <|
    .token [' '] (.number "-1") rfl <| .blank [] rfl
  have hs : Spelled w s.toList := by
    simpa [w, s, Token.text, Bracket.opener, Bracket.closer, Operator.symbol] using hspelled
  have hfits : s.length ≤ ({} : Options).limits.inputLength := by decide
  exact ⟨h, hs, hfits, run_spelled h hs hfits⟩

end Calculation

end Calculator
