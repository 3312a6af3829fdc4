import Calculator.Proofs.Calculation
import Calculator.Proofs.Conservation
import Calculator.Proofs.Wellformed

/-!
# Which texts have a value

No part of a calculation looks at the order of operands and operators: the yard
checks brackets, and the evaluation checks that every operator has its operands when
it is applied. So a list like `1 2 +` has a value although it is no infix expression.
What can be said is that nothing else goes wrong: the postfix order of an accepted
list is that of some expression over the same numerals and operators, and the list
itself is an expression as soon as its operands and operators alternate.

Results:

* `exists_expression`: every token list whose postfix order has a value has the
  postfix order of an expression.
* `accepted_iff`: exactly which texts have which value.
* `accepted_postfix_sum`: an accepted text that is no infix expression.
-/

namespace Calculator

open Token (tokenize numerals operators alternate)

/-- A list whose postfix order has a value is a rearrangement of an expression: the same
    numerals in the same order, the same operators, and the same postfix order. -/
theorem exists_expression {limit : Option Nat} {ts ordered : List Token} {x : Float}
    (harrange : Yard.arrange ts = .ok ordered) (hvalue : Evaluation.evaluate limit ordered = .ok x) :
    ∃ w t, Derives .expression w t ∧ Yard.arrange w = Yard.arrange ts ∧
      numerals w = numerals ts ∧ (operators w).Perm (operators ts) ∧
      t.value (Evaluation.operand limit) 0 = .ok x := by
  obtain ⟨t, hpost, hx⟩ := Evaluation.exists_tree_of_evaluate hvalue
  have hderives : Derives .expression t.bracketed t := t.derives_bracketed.toExpression
  have hbracketed : Yard.arrange t.bracketed = .ok ordered := by
    rw [hderives.arrange_eq, hpost]
  refine ⟨t.bracketed, t, hderives, hbracketed.trans harrange.symm, ?_, ?_, hx⟩
  · rw [← Yard.numerals_arrange hbracketed, ← Yard.numerals_arrange harrange]
  · exact (Yard.operators_arrange hbracketed).symm.trans (Yard.operators_arrange harrange)

/-- A list that has the postfix order of an expression has the value of its tree. -/
theorem evaluate_of_arrange_eq (limit : Option Nat) {w ts : List Token} {t : Tree String}
    (h : Derives .expression w t) (harrange : Yard.arrange w = Yard.arrange ts) :
    Yard.arrange ts = .ok t.postorder ∧
      Evaluation.evaluate limit t.postorder = t.value (Evaluation.operand limit) 0 := by
  rw [← harrange, h.arrange_eq]
  exact ⟨rfl, Evaluation.evaluate_postorder limit t⟩

namespace Calculation

/-- **Exactly the accepted texts.** A calculation has the value `x` exactly when the text is
    not too long and its tokens have the postfix order of an infix expression whose tree has
    the value `x`, with the same numerals in the same order and the same operators. The tokens
    of an accepted text hold no invalid one and their brackets match; they are an infix
    expression themselves if and only if operands and operators alternate in them. -/
theorem accepted_iff (options : Options) (source : String) :
    (∀ x, (∃ out, run options source = .ok out ∧ out.value = x) ↔
      source.length ≤ options.limits.inputLength ∧
      ∃ w t, Derives .expression w t ∧ Yard.arrange w = Yard.arrange (tokenize source) ∧
        numerals w = numerals (tokenize source) ∧
        (operators w).Perm (operators (tokenize source)) ∧
        t.value (Evaluation.operand (some options.limits.operands)) 0 = .ok x) ∧
    ∀ out, run options source = .ok out →
      Matching.check (tokenize source) = .ok () ∧
      ((∃ t, Derives .expression (tokenize source) t) ↔
        alternate true (tokenize source) = true) := by
  constructor
  · intro x
    constructor
    · rintro ⟨out, hrun, rfl⟩
      obtain ⟨hfits, harrange, hvalue⟩ := parts_of_run hrun
      exact ⟨hfits, exists_expression harrange hvalue⟩
    · rintro ⟨hfits, w, t, hderives, harrange, _, _, hx⟩
      obtain ⟨hordered, hvalue⟩ :=
        evaluate_of_arrange_eq (some options.limits.operands) hderives harrange
      rw [run_of_arrange hfits hordered, hvalue, hx]
      exact ⟨_, rfl, rfl⟩
  · intro out hrun
    obtain ⟨_, harrange, _⟩ := parts_of_run hrun
    have hcheck := Yard.exists_arrange_iff.mp ⟨_, harrange⟩
    refine ⟨hcheck, ?_⟩
    rw [exists_derives_iff]
    exact ⟨fun h => h.1, fun h => ⟨h, hcheck⟩⟩

/-! ## A text in postfix order -/

theorem tokenize_postfix_sum :
    tokenize "1 2 +" = [.number "1", .number "2", .operator .add] := by
  have hone : Token.scan true ['1', ' ', '2', ' ', '+'] =
      .number "1" :: Token.scan false ([' '] ++ ['2', ' ', '+']) := by
    refine Token.scan_number (n := ⟨false, ['1'], none, by decide, by decide⟩) ?_ fun h => nomatch h
    intro c hc
    cases hc
    decide
  have htwo : Token.scan false ['2', ' ', '+'] =
      .number "2" :: Token.scan false ([' '] ++ ['+']) := by
    refine Token.scan_number (n := ⟨false, ['2'], none, by decide, by decide⟩) ?_ fun h => nomatch h
    intro c hc
    cases hc
    decide
  have hplus : Token.scan false ['+'] = [.operator .add] := by
    have h := Token.scan_operator .add []
    rwa [Token.scan] at h
  have hblank : [' '].all Text.isBlank = true := rfl
  show Token.scan true ['1', ' ', '2', ' ', '+'] = _
  rw [hone, Token.scan_blanks hblank, htwo, Token.scan_blanks hblank, hplus]

theorem run_postfix_sum : ∃ out, run {} "1 2 +" = .ok out := by
  have hordered : Yard.arrange (tokenize "1 2 +") =
      .ok (Tree.node .add (.leaf "1") (.leaf "2")).postorder := by
    rw [tokenize_postfix_sum]
    rfl
  rw [run_of_arrange (by decide) hordered, Evaluation.evaluate_postorder]
  exact ⟨_, rfl⟩

/-- A text that has a value and is no infix expression. -/
theorem accepted_postfix_sum :
    (∃ out, run {} "1 2 +" = .ok out) ∧ ¬ ∃ t, Derives .expression (tokenize "1 2 +") t := by
  refine ⟨run_postfix_sum, ?_⟩
  rw [tokenize_postfix_sum]
  rintro ⟨t, h⟩
  exact absurd h.alternate (by decide)

/-- The text is a rearrangement of an expression all the same. -/
theorem rearranged_postfix_sum :
    ∃ out, run {} "1 2 +" = .ok out ∧ Matching.check (tokenize "1 2 +") = .ok () ∧
      ∃ w t, Derives .expression w t ∧ Yard.arrange w = Yard.arrange (tokenize "1 2 +") ∧
        numerals w = ["1", "2"] ∧ (operators w).Perm [.add] ∧
        t.value (Evaluation.operand (some 1024)) 0 = .ok out.value := by
  obtain ⟨out, hrun⟩ := run_postfix_sum
  have haccepted := accepted_iff {} "1 2 +"
  obtain ⟨_, w, t, hw, harrange, hnumerals, hoperators, hx⟩ :=
    (haccepted.1 out.value).mp ⟨out, hrun, rfl⟩
  refine ⟨out, hrun, (haccepted.2 out hrun).1, w, t, hw, harrange, ?_, ?_, hx⟩
  · rw [hnumerals, tokenize_postfix_sum]
    rfl
  · rw [tokenize_postfix_sum] at hoperators
    exact hoperators

end Calculation

end Calculator
