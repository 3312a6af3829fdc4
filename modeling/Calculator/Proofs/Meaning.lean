import Calculator.Proofs.Value

/-!
# The meaning of a tree and its first fault

The evaluation without a limit computes the plain recursive value of a tree, in which
nothing is said of waiting operands. Where that recursion fails, it fails at the first
part of the tree, in the order left operand, right operand, operator, that has no value
although all parts before it have one.

Results:

* `Tree.amount_eq_error_iff`: the fault of a tree is that of its first faulty part.
* `Evaluation.evaluate_postorder_none`: without a limit a postfix order has the meaning
  of its tree.
* `Evaluation.evaluate_trees`: exactly the postfix orders of trees with a value have
  one, each of a single tree, and the others of a tree fail with its first fault.
-/

namespace Calculator

namespace Tree

/-! ## The recursion -/

/-- The value of an expression: the left operand, the right operand, the operator. -/
def amount : Tree String → Except ValueFault Float
  | leaf text =>
    match Decimal.read? text with
    | some x => .ok x
    | none => .error (.invalidToken text)
  | node op l r => do
    let a ← l.amount
    let b ← r.amount
    op.apply a b

/-- Without a limit it does not matter how many operands wait. -/
theorem value_operand_none (t : Tree String) : ∀ height,
    t.value (Evaluation.operand none) height = t.amount := by
  induction t with
  | leaf text =>
    intro height
    unfold value amount Evaluation.operand
    cases Decimal.read? text <;> rfl
  | node op l r ihl ihr =>
    intro height
    rw [value, amount, ihl, ihr]

/-! ## Parts of a tree -/

/-- The parts of a tree in the order in which the recursion is done with them: those of
    the left operand, those of the right operand, the tree itself. -/
def parts {α : Type} : Tree α → List (Tree α)
  | leaf a => [leaf a]
  | node op l r => l.parts ++ r.parts ++ [node op l r]

/-- The tree itself has a fault, while its operands have values: a leaf that is no number,
    or a quotient with the divisor zero. -/
inductive Faulty : Tree String → ValueFault → Prop
  | leaf {text : String} : Decimal.read? text = none → Faulty (leaf text) (.invalidToken text)
  | quotient {l r : Tree String} {a b : Float} : l.amount = .ok a → r.amount = .ok b →
      (b == 0.0) = true → Faulty (node .div l r) .divisionByZero

theorem Faulty.amount_eq {t : Tree String} {e : ValueFault} (h : Faulty t e) :
    t.amount = .error e := by
  cases h with
  | leaf hread => rw [amount, hread]
  | quotient hl hr hzero =>
    rw [amount, hl, Except.ok_bind, hr, Except.ok_bind, Operator.apply, if_pos hzero]

/-- Every part of a tree that has a value has one. -/
theorem amount_of_mem_parts {t : Tree String} : ∀ {x : Float}, t.amount = .ok x →
    ∀ u ∈ t.parts, ∃ y, u.amount = .ok y := by
  induction t with
  | leaf text =>
    intro x h u hu
    rw [List.mem_singleton.mp hu]
    exact ⟨x, h⟩
  | node op l r ihl ihr =>
    intro x h u hu
    have hnode := h
    rw [amount] at h
    obtain ⟨a, ha, h⟩ := Except.bind_eq_ok_iff.mp h
    obtain ⟨b, hb, _⟩ := Except.bind_eq_ok_iff.mp h
    rw [parts, List.mem_append, List.mem_append] at hu
    rcases hu with (hu | hu) | hu
    · exact ihl ha u hu
    · exact ihr hb u hu
    · rw [List.mem_singleton.mp hu]
      exact ⟨x, hnode⟩

/-- The texts at the leaves of a tree that has a value are numbers. -/
theorem read?_of_mem_leaves {t : Tree String} : ∀ {x : Float}, t.amount = .ok x →
    ∀ text ∈ t.leaves, ∃ y, Decimal.read? text = some y := by
  induction t with
  | leaf s =>
    intro x h text htext
    rw [List.mem_singleton.mp htext]
    rw [amount] at h
    cases hread : Decimal.read? s with
    | some y => exact ⟨y, rfl⟩
    | none => rw [hread] at h; cases h
  | node op l r ihl ihr =>
    intro x h text htext
    rw [amount] at h
    obtain ⟨a, ha, h⟩ := Except.bind_eq_ok_iff.mp h
    obtain ⟨b, hb, _⟩ := Except.bind_eq_ok_iff.mp h
    rcases List.mem_append.mp htext with hl | hr
    · exact ihl ha text hl
    · exact ihr hb text hr

/-! ## The first fault -/

/-- `FirstFault t e`: the first part of `t` without a value has the fault `e` itself. -/
def FirstFault (t : Tree String) (e : ValueFault) : Prop :=
  ∃ before s after, t.parts = before ++ s :: after ∧
    (∀ u ∈ before, ∃ x, u.amount = .ok x) ∧ Faulty s e

theorem firstFault_of_amount {t : Tree String} : ∀ {e : ValueFault}, t.amount = .error e →
    FirstFault t e := by
  induction t with
  | leaf text =>
    intro e h
    have hfaulty : Faulty (leaf text) e := by
      rw [amount] at h
      cases hread : Decimal.read? text with
      | some y => rw [hread] at h; cases h
      | none => rw [hread] at h; cases h; exact .leaf hread
    exact ⟨[], leaf text, [], rfl, fun _ hu => absurd hu List.not_mem_nil, hfaulty⟩
  | node op l r ihl ihr =>
    intro e h
    rw [amount] at h
    cases hl : l.amount with
    | error e' =>
      rw [hl] at h
      cases h
      obtain ⟨before, s, after, hparts, hbefore, hs⟩ := ihl hl
      refine ⟨before, s, after ++ r.parts ++ [node op l r], ?_, hbefore, hs⟩
      rw [parts, hparts]
      simp
    | ok a =>
      rw [hl, Except.ok_bind] at h
      have hleft := amount_of_mem_parts hl
      cases hr : r.amount with
      | error e' =>
        rw [hr] at h
        cases h
        obtain ⟨before, s, after, hparts, hbefore, hs⟩ := ihr hr
        refine ⟨l.parts ++ before, s, after ++ [node op l r], ?_, ?_, hs⟩
        · rw [parts, hparts]
          simp
        · intro u hu
          exact (List.mem_append.mp hu).elim (hleft u) (hbefore u)
      | ok b =>
        rw [hr, Except.ok_bind] at h
        obtain ⟨rfl, hzero, rfl⟩ := Operator.apply_eq_error h
        refine ⟨l.parts ++ r.parts, node .div l r, [], rfl, ?_, .quotient hl hr hzero⟩
        intro u hu
        exact (List.mem_append.mp hu).elim (hleft u) (amount_of_mem_parts hr u)

/-- There is only one first fault: before it all parts have values, and it has none. -/
theorem FirstFault.unique {t : Tree String} {e e' : ValueFault} (h : FirstFault t e)
    (h' : FirstFault t e') : e = e' := by
  have hcut : ∀ {e before s after}, t.parts = before ++ s :: after →
      (∀ u ∈ before, ∃ x, u.amount = .ok x) → Faulty s e →
      t.parts.dropWhile (fun u => u.amount.toBool) = s :: after := by
    intro e before s after hparts hbefore hs
    rw [hparts]
    refine Run.dropWhile_append (fun u hu => ?_) (Run.takeWhile_eq_nil fun u hu => ?_)
    · obtain ⟨x, hx⟩ := hbefore u hu
      rw [hx]
      rfl
    · cases hu
      rw [hs.amount_eq]
      rfl
  obtain ⟨before, s, after, hparts, hbefore, hs⟩ := h
  obtain ⟨before', s', after', hparts', hbefore', hs'⟩ := h'
  have hsame := (hcut hparts hbefore hs).symm.trans (hcut hparts' hbefore' hs')
  have hamount : s.amount = s'.amount := by rw [(List.cons.inj hsame).1]
  rw [hs.amount_eq, hs'.amount_eq] at hamount
  exact Except.error.inj hamount

/-- A tree fails exactly with its first fault. -/
theorem amount_eq_error_iff {t : Tree String} {e : ValueFault} :
    t.amount = .error e ↔ FirstFault t e := by
  refine ⟨firstFault_of_amount, fun h => ?_⟩
  cases ht : t.amount with
  | error e' => rw [(firstFault_of_amount ht).unique h]
  | ok x =>
    obtain ⟨before, s, after, hparts, _, hs⟩ := h
    have hmem : s ∈ t.parts := by rw [hparts]; simp
    obtain ⟨y, hy⟩ := amount_of_mem_parts ht s hmem
    rw [hs.amount_eq] at hy
    cases hy

end Tree

namespace Evaluation

/-! ## Evaluations without a limit -/

theorem evaluate_postorder_none (t : Tree String) : evaluate none t.postorder = t.amount := by
  rw [evaluate_postorder, Tree.value_operand_none]

/-- **The evaluation without a limit accepts exactly the postfix orders of trees that have
    a value.** Its result is the value of the tree, all of whose leaves are then numbers;
    there is at most one tree with a given postfix order; and the postfix order of a tree
    without a value fails with the first fault of the tree, a division by zero or a leaf
    that is no number. -/
theorem evaluate_trees (ts : List Token) :
    (∀ v, evaluate none ts = .ok v ↔ ∃ t : Tree String, t.postorder = ts ∧
      (∀ text ∈ t.leaves, ∃ x, Decimal.read? text = some x) ∧ t.amount = .ok v) ∧
    (∀ t u : Tree String, t.postorder = ts → u.postorder = ts → t = u) ∧
    ∀ (t : Tree String) (e : ValueFault), t.postorder = ts → t.amount = .error e →
      evaluate none ts = .error e ∧ t.FirstFault e := by
  refine ⟨fun v => ⟨fun h => ?_, ?_⟩, fun t u ht hu => ?_, fun t e ht he => ?_⟩
  · obtain ⟨t, hpost, hvalue⟩ := exists_tree_of_evaluate h
    rw [Tree.value_operand_none] at hvalue
    exact ⟨t, hpost, Tree.read?_of_mem_leaves hvalue, hvalue⟩
  · rintro ⟨t, rfl, _, hvalue⟩
    rw [evaluate_postorder_none, hvalue]
  · exact Tree.postorder_injective (ht.trans hu.symm)
  · subst ht
    rw [evaluate_postorder_none]
    exact ⟨he, Tree.amount_eq_error_iff.mp he⟩

/-- Two faults in one tree: the quotient comes before the leaf that is no number. -/
theorem evaluate_trees_quotient :
    let t : Tree String := .node .add (.node .div (.leaf "8") (.leaf "-0")) (.leaf "x")
    let ts : List Token :=
      [.number "8", .number "-0", .operator .div, .number "x", .operator .add]
    t.postorder = ts ∧ t.amount = .error .divisionByZero ∧
    evaluate none ts = .error .divisionByZero ∧ t.FirstFault .divisionByZero ∧
    ∀ u : Tree String, u.postorder = ts → u = t := by
  intro t ts
  have hpost : t.postorder = ts := rfl
  have hamount : t.amount = .error .divisionByZero := rfl
  obtain ⟨_, hunique, hfault⟩ := evaluate_trees ts
  obtain ⟨hevaluate, hfirst⟩ := hfault t .divisionByZero hpost hamount
  exact ⟨hpost, hamount, hevaluate, hfirst, fun u hu => hunique u t hu hpost⟩

end Evaluation

end Calculator
