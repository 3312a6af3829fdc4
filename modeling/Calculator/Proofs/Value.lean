import Calculator.Evaluation
import Calculator.Proofs.Basic
import Calculator.Proofs.Tree

/-!
# The value of a tree

The recursive meaning of an expression tree: the left operand, then the right one
with one operand more waiting below it, then the operator; the first fault ends it.
The evaluation of a postfix order is this recursion on a stack.

Results:

* `run_postorder`: a postfix order leaves the value of its tree on top of whatever
  operands were waiting before, or fails as the tree does.
* `evaluate_postorder`: the value of a postfix order is the value of its tree.
* `exists_tree_of_evaluate`: a token list that has a value is the postfix order of
  a tree with that value.
-/

namespace Calculator

/-- The value of an expression. An operand is read with the number of operands
    that wait below it. -/
def Tree.value {α : Type} (read : Nat → α → Except ValueFault Float) (height : Nat) :
    Tree α → Except ValueFault Float
  | leaf a => read height a
  | node op l r => do
    let a ← l.value read height
    let b ← r.value read (height + 1)
    op.apply a b

theorem Tree.value_map {α β : Type} (f : α → β) (read : Nat → β → Except ValueFault Float)
    (t : Tree α) : ∀ height,
      (t.map f).value read height = t.value (fun height a => read height (f a)) height := by
  induction t with
  | leaf a => intro height; rfl
  | node op l r ihl ihr => intro height; rw [map, value, value, ihl, ihr]

/-- Only a quotient fails, and only by the divisor zero. -/
theorem Operator.apply_eq_error {op : Operator} {a b : Float} {e : ValueFault}
    (h : op.apply a b = .error e) : op = .div ∧ (b == 0.0) = true ∧ e = .divisionByZero := by
  cases op with
  | div =>
    rw [Operator.apply] at h
    split at h
    · next hzero =>
      cases h
      exact ⟨rfl, hzero, rfl⟩
    · cases h
  | add => cases h
  | sub => cases h
  | mul => cases h
  | pow => cases h

namespace Evaluation

/-- The number of a numeral's text, provided that one operand more may wait. -/
def operand (limit : Option Nat) (height : Nat) (text : String) : Except ValueFault Float :=
  match Decimal.read? text with
  | some x =>
    match limit with
    | some most => if most ≤ height then .error (.stackOverflow most) else .ok x
    | none => .ok x
  | none => .error (.invalidToken text)

theorem step_number (limit : Option Nat) (stack : Operands) (text : String) :
    step limit stack (.number text) = (operand limit stack.length text).map (· :: stack) := by
  simp only [step, operand]
  cases Decimal.read? text with
  | none => rfl
  | some x =>
    cases limit with
    | none => rfl
    | some most =>
      simp only [push]
      split <;> rfl

theorem step_operator (limit : Option Nat) (stack : Operands) (op : Operator) (a b : Float) :
    step limit (b :: a :: stack) (.operator op) = (op.apply a b).map (· :: stack) := rfl

/-! ## Postfix orders -/

/-- The operands that waited before stay below the value. -/
theorem run_postorder (limit : Option Nat) (t : Tree String) : ∀ stack,
    run limit stack t.postorder = (t.value (operand limit) stack.length).map (· :: stack) := by
  induction t with
  | leaf text =>
    intro stack
    rw [Tree.postorder, run_cons, step_number, Tree.value]
    cases operand limit stack.length text <;> rfl
  | node op l r ihl ihr =>
    intro stack
    rw [Tree.postorder, run_append, run_append, ihl, Tree.value]
    cases l.value (operand limit) stack.length with
    | error e => rfl
    | ok a =>
      rw [Except.map_ok, Except.ok_bind, ihr (a :: stack), List.length_cons, Except.ok_bind]
      cases r.value (operand limit) (stack.length + 1) with
      | error e => rfl
      | ok b =>
        rw [Except.map_ok, Except.ok_bind, Except.ok_bind, run_cons, step_operator]
        cases op.apply a b <;> rfl

theorem evaluate_postorder (limit : Option Nat) (t : Tree String) :
    evaluate limit t.postorder = t.value (operand limit) 0 := by
  rw [evaluate_eq_run, run_postorder, List.length_nil]
  cases t.value (operand limit) 0 <;> rfl

/-! ## Token lists that have a value -/

/-- Wherever the evaluation takes a token, trees can be gathered in step with it. -/
theorem gather_of_step {limit : Option Nat} {stack next : Operands} {trees : List (Tree String)}
    {t : Token} (hlen : trees.length = stack.length) (h : step limit stack t = .ok next) :
    ∃ grown, Tree.gather trees t = some grown ∧ grown.length = next.length := by
  cases t with
  | number text =>
    rw [step_number] at h
    cases hx : operand limit stack.length text with
    | error e => rw [hx] at h; cases h
    | ok x =>
      rw [hx] at h
      cases h
      exact ⟨.leaf text :: trees, rfl, by rw [List.length_cons, List.length_cons, hlen]⟩
  | operator op =>
    match stack, trees, hlen, h with
    | b :: a :: rest, r :: l :: below, hlen, h =>
      rw [step_operator] at h
      cases hx : op.apply a b with
      | error e => rw [hx] at h; cases h
      | ok x =>
        rw [hx] at h
        cases h
        exact ⟨.node op l r :: below, rfl, by simpa using hlen⟩
  | opening b => cases h
  | closing b => cases h
  | invalid text => cases h

theorem gatherAll_of_run {limit : Option Nat} (ts : List Token) :
    ∀ {stack next : Operands} {trees : List (Tree String)}, trees.length = stack.length →
      run limit stack ts = .ok next →
      ∃ grown, Tree.gatherAll trees ts = some grown ∧ grown.length = next.length := by
  induction ts with
  | nil =>
    intro stack next trees hlen h
    cases h
    exact ⟨trees, rfl, hlen⟩
  | cons t ts ih =>
    intro stack next trees hlen h
    rw [run_cons] at h
    obtain ⟨mid, hmid, hnext⟩ := Except.bind_eq_ok_iff.mp h
    obtain ⟨grown, hgrown, hlen'⟩ := gather_of_step hlen hmid
    rw [Tree.gatherAll_cons, hgrown, Option.bind_some]
    exact ih hlen' hnext

/-- The evaluation accepts nothing but postfix orders of trees. -/
theorem exists_tree_of_evaluate {limit : Option Nat} {ts : List Token} {x : Float}
    (h : evaluate limit ts = .ok x) :
    ∃ t : Tree String, t.postorder = ts ∧ t.value (operand limit) 0 = .ok x := by
  have hvalue := h
  rw [evaluate_eq_run] at h
  obtain ⟨stack, hrun, hresult⟩ := Except.bind_eq_ok_iff.mp h
  have hstart : ([] : List (Tree String)).length = ([] : Operands).length := rfl
  obtain ⟨grown, hgrown, hlen⟩ := gatherAll_of_run ts hstart hrun
  match stack, hresult with
  | [y], hresult =>
    match grown, hlen with
    | [t], _ =>
      have hpost := Tree.postorder_of_gatherAll hgrown
      refine ⟨t, hpost, ?_⟩
      rw [← evaluate_postorder, hpost, hvalue]

end Evaluation

end Calculator
