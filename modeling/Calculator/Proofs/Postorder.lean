import Calculator.Proofs.Basic
import Calculator.Proofs.Grammar
import Calculator.Yard

/-!
# The postfix order of an infix expression

The yard has no tree: an operator waits on its stack until the operators that
follow it, a bracket or the end release it. Here is why the order in which they
come out is the postfix order of the tree that the grammar gives.

A list of category `c` may be read on top of any stack whose top no operator of `c`
or of a tighter category releases (`Settled`). Its own operators that still wait at
the end lie above that stack, all of them of category `c` or tighter, and the
output followed by them is the postfix order (`Laid`). So an operator of `c` that
comes next releases exactly them.

Results:

* `Derives.run_laid`: the invariant at each of the four categories.
* `Derives.arrange_eq`: the yard brings every derivable list into the postfix order
  of its tree.
* `arrange_derives`: hence no list has two trees, and equal operators group to the
  left, powers to the right.
-/

namespace Calculator

/-- The category of an operator's operands where they lie beside an operator of the
    same precedence. -/
def Operator.operands : Operator → Category
  | .add | .sub => .term
  | .mul | .div => .factor
  | .pow => .atom

theorem Operator.precedence_lt_atom (op : Operator) : op.precedence < Category.atom.strength := by
  cases op <;> decide

theorem Operator.yieldsTo_of_left {above below : Operator} (hleft : below.isLeft = true)
    (h : below.precedence ≤ above.precedence) : above.yieldsTo below = true := by
  cases above <;> cases below <;> revert hleft h <;> decide

theorem Operator.not_yieldsTo_of_lt {above below : Operator}
    (h : above.precedence < below.precedence) : above.yieldsTo below = false := by
  cases above <;> cases below <;> revert h <;> decide

namespace Yard

/-! ## Releasing operators -/

theorem map_operator_done {done : Waiting → Bool} {ops : List Operator}
    (hops : ∀ op ∈ ops, done (.operator op) = true) :
    ∀ x ∈ ops.map Waiting.operator, done x = true := by
  intro x hx
  obtain ⟨op, hop, rfl⟩ := List.mem_map.mp hx
  exact hops op hop

/-- Operators that are done lie above a stack whose top is not. -/
theorem dropWhile_waiting {done : Waiting → Bool} {ops : List Operator} {stack : List Waiting}
    (hops : ∀ op ∈ ops, done (.operator op) = true) (hstack : stack.takeWhile done = []) :
    (ops.map Waiting.operator ++ stack).dropWhile done = stack :=
  Run.dropWhile_append (map_operator_done hops) hstack

theorem released_waiting {done : Waiting → Bool} {ops : List Operator} {stack : List Waiting}
    (hops : ∀ op ∈ ops, done (.operator op) = true) (hstack : stack.takeWhile done = []) :
    released done (ops.map Waiting.operator ++ stack) = ops.map Token.operator := by
  rw [released, Run.takeWhile_append (map_operator_done hops) hstack, List.map_map]
  rfl

@[simp] theorem toList_output_release (y : Yard) (done : Waiting → Bool) :
    (y.release done).output.toList = y.output.toList ++ released done y.stack :=
  Array.toList_appendList

/-! ## The invariant -/

/-- No operator of the category, or of a tighter one, releases the top of the stack. -/
def Settled (c : Category) (stack : List Waiting) : Prop :=
  ∀ op : Operator, c.strength ≤ op.precedence → stack.takeWhile (Waiting.yieldsTo op) = []

/-- From the yard `y` to the yard `z`, a list of category `c` with tree `t` was read:
    the operators `ops` of it still wait above the old stack, and with them the output
    is complete. -/
structure Laid (c : Category) (t : Tree String) (y z : Yard) (ops : List Operator) : Prop where
  stack : z.stack = ops.map .operator ++ y.stack
  strong : ∀ op ∈ ops, c.strength ≤ op.precedence
  output : z.output.toList ++ ops.map .operator = y.output.toList ++ t.postorder

theorem Settled.mono {c d : Category} {stack : List Waiting} (h : Settled c stack)
    (hcd : c.strength ≤ d.strength) : Settled d stack :=
  fun op hop => h op (Nat.le_trans hcd hop)

theorem settled_nil (c : Category) : Settled c [] := fun _ _ => rfl

theorem settled_opening (c : Category) (b : Bracket) (stack : List Waiting) :
    Settled c (.opening b :: stack) := fun _ _ => rfl

theorem settled_operator {c : Category} {op : Operator} (stack : List Waiting)
    (h : ∀ next : Operator, c.strength ≤ next.precedence → op.yieldsTo next = false) :
    Settled c (.operator op :: stack) := by
  intro next hnext
  have hstay : Waiting.yieldsTo next (.operator op) = false := h next hnext
  rw [List.takeWhile_cons, hstay]
  rfl

theorem Laid.mono {c d : Category} {t : Tree String} {y z : Yard} {ops : List Operator}
    (h : Laid d t y z ops) (hcd : c.strength ≤ d.strength) : Laid c t y z ops :=
  ⟨h.stack, fun op hop => Nat.le_trans hcd (h.strong op hop), h.output⟩

/-! ## One operation -/

/-- The operator between two operands releases what waits of the left one. -/
theorem Laid.step_operator {d : Category} {l : Tree String} {y z : Yard} {ops : List Operator}
    {op : Operator} (h : Laid d l y z ops)
    (hyield : ∀ above : Operator, d.strength ≤ above.precedence → above.yieldsTo op = true)
    (hsettled : y.stack.takeWhile (Waiting.yieldsTo op) = []) :
    ∃ m : Yard, z.step (.operator op) = .ok m ∧ m.stack = .operator op :: y.stack ∧
      m.output.toList = y.output.toList ++ l.postorder := by
  have hops : ∀ above ∈ ops, Waiting.yieldsTo op (.operator above) = true :=
    fun above habove => hyield above (h.strong above habove)
  refine ⟨_, rfl, ?_, ?_⟩
  · show Waiting.operator op :: z.stack.dropWhile (Waiting.yieldsTo op) = _
    rw [h.stack, dropWhile_waiting hops hsettled]
  · rw [toList_output_release, h.stack, released_waiting hops hsettled, h.output]

/-- Two operands and the operator between them. -/
theorem run_node {c d e : Category} {op : Operator} {u w : List Token} {l r : Tree String}
    {y : Yard} (hleft : ∃ z ops, y.run u = .ok z ∧ Laid d l y z ops)
    (hright : ∀ m : Yard, m.stack = .operator op :: y.stack →
      ∃ z ops, m.run w = .ok z ∧ Laid e r m z ops)
    (hyield : ∀ above : Operator, d.strength ≤ above.precedence → above.yieldsTo op = true)
    (hsettled : y.stack.takeWhile (Waiting.yieldsTo op) = [])
    (hop : c.strength ≤ op.precedence) (hce : c.strength ≤ e.strength) :
    ∃ z ops, y.run (u ++ .operator op :: w) = .ok z ∧ Laid c (.node op l r) y z ops := by
  obtain ⟨z, ops, hz, hlaid⟩ := hleft
  obtain ⟨m, hm, hmstack, hmoutput⟩ := hlaid.step_operator hyield hsettled
  obtain ⟨z', ops', hz', hlaid'⟩ := hright m hmstack
  refine ⟨z', ops' ++ [op], ?_, ?_, ?_, ?_⟩
  · rw [run_append, hz, Except.ok_bind, run_cons, hm, Except.ok_bind, hz']
  · rw [hlaid'.stack, hmstack, List.map_append, List.append_assoc]
    rfl
  · intro o ho
    rcases List.mem_append.mp ho with ho | ho
    · exact Nat.le_trans hce (hlaid'.strong o ho)
    · rw [List.mem_singleton.mp ho]
      exact hop
  · rw [List.map_append, ← List.append_assoc, hlaid'.output, hmoutput, Tree.postorder,
      List.append_assoc, List.append_assoc, List.append_assoc]
    rfl

/-- The case of an operator that groups to the left: its left operand may hold operators
    of its own precedence, its right operand only stronger ones. -/
theorem run_left {c e : Category} {op : Operator} {u w : List Token} {l r : Tree String}
    {y : Yard} (hprec : op.precedence = c.strength) (hleft : op.isLeft = true)
    (hce : c.strength < e.strength) (hy : Settled c y.stack)
    (hl : ∃ z ops, y.run u = .ok z ∧ Laid c l y z ops)
    (hr : ∀ m : Yard, Settled e m.stack → ∃ z ops, m.run w = .ok z ∧ Laid e r m z ops) :
    ∃ z ops, y.run (u ++ .operator op :: w) = .ok z ∧ Laid c (.node op l r) y z ops := by
  refine run_node hl (fun m hm => hr m ?_) (fun above habove => ?_) (hy op (by omega)) (by omega)
    (by omega)
  · rw [hm]
    exact settled_operator _ fun next hnext => Operator.not_yieldsTo_of_lt (by omega)
  · exact Operator.yieldsTo_of_left hleft (by omega)

/-- A closing bracket meets the bracket that opened it. -/
theorem step_closing_of_opening {y : Yard} {b : Bracket} {rest : List Waiting}
    (h : (y.release Waiting.isOperator).stack = .opening b :: rest) :
    y.step (.closing b) = .ok { y.release Waiting.isOperator with stack := rest } := by
  rw [step, meet, h]
  exact if_pos rfl

/-- A bracketed list: its operators do not get past the brackets. -/
theorem run_bracketed {b : Bracket} {w : List Token} {t : Tree String} {y : Yard}
    (hinner : ∀ m : Yard, m.stack = .opening b :: y.stack →
      ∃ z ops, m.run w = .ok z ∧ Laid .expression t m z ops) :
    ∃ z ops, y.run (.opening b :: (w ++ [.closing b])) = .ok z ∧ Laid .atom t y z ops := by
  obtain ⟨z, ops, hz, hlaid⟩ := hinner { y with stack := .opening b :: y.stack } rfl
  have hops : ∀ op ∈ ops, Waiting.isOperator (.operator op) = true := fun _ _ => rfl
  have hbelow : (Waiting.opening b :: y.stack).takeWhile Waiting.isOperator = [] := rfl
  have hdrop : (z.release Waiting.isOperator).stack = .opening b :: y.stack := by
    show z.stack.dropWhile Waiting.isOperator = _
    rw [hlaid.stack, dropWhile_waiting hops hbelow]
  have hclose := step_closing_of_opening hdrop
  refine ⟨{ z.release Waiting.isOperator with stack := y.stack }, [], ?_, rfl, ?_, ?_⟩
  · rw [run_cons]
    show run { y with stack := .opening b :: y.stack } (w ++ [.closing b]) = _
    rw [run_append, hz, Except.ok_bind, run_cons, hclose]
    rfl
  · intro op hop
    cases hop
  · rw [List.map_nil, List.append_nil]
    show (z.release Waiting.isOperator).output.toList = _
    rw [toList_output_release, hlaid.stack, released_waiting hops hbelow, hlaid.output]

end Yard

/-! ## Whole expressions -/

namespace Derives

open Yard

/-- The invariant, by induction on the derivation. An operator's left operand leaves
    waiting operators that yield to it, and the operator itself yields to none of its
    right operand's. -/
theorem run_laid {c : Category} {w : List Token} {t : Tree String} (h : Derives c w t) :
    ∀ y : Yard, Settled c y.stack → ∃ z ops, y.run w = .ok z ∧ Laid c t y z ops := by
  induction h with
  | expression _ ih | term _ ih | factor _ ih =>
    intro y hy
    obtain ⟨z, ops, hz, hlaid⟩ := ih y (hy.mono (by decide))
    exact ⟨z, ops, hz, hlaid.mono (by decide)⟩
  | @sum op u w l r hop _ _ ihl ihr =>
    intro y hy
    have hprec : op.precedence = 1 ∧ op.isLeft = true := by
      rcases hop with rfl | rfl <;> decide
    exact run_left hprec.1 hprec.2 (by decide) hy (ihl y hy) ihr
  | @product op u w l r hop _ _ ihl ihr =>
    intro y hy
    have hprec : op.precedence = 2 ∧ op.isLeft = true := by
      rcases hop with rfl | rfl <;> decide
    exact run_left hprec.1 hprec.2 (by decide) hy (ihl y hy) ihr
  | power _ _ ihl ihr =>
    intro y hy
    refine run_node (ihl y (hy.mono (by decide))) (fun m hm => ihr m ?_) (fun above habove => ?_)
      (hy .pow (by decide)) (by decide) (by decide)
    · -- a power yields to no power, so the right operand may begin with one
      rw [hm]
      exact settled_operator _ fun next hnext => by cases next <;> revert hnext <;> decide
    · exact absurd habove (Nat.not_le.mpr above.precedence_lt_atom)
  | number text =>
    intro y _
    refine ⟨{ y with output := y.output.push (.number text) }, [], rfl, rfl, ?_, ?_⟩
    · intro op hop
      cases hop
    · simp [Tree.postorder]
  | bracketed b _ ih =>
    intro y _
    refine run_bracketed fun m hm => ih m ?_
    rw [hm]
    exact settled_opening _ b _

/-- The yard brings an expression into the postfix order of its tree. -/
theorem arrange_eq {w : List Token} {t : Tree String} (h : Derives .expression w t) :
    arrange w = .ok t.postorder := by
  obtain ⟨z, ops, hz, hlaid⟩ := h.run_laid {} (settled_nil _)
  have hops : ∀ op ∈ ops, Waiting.isOperator (.operator op) = true := fun _ _ => rfl
  have hstack : (z.release Waiting.isOperator).stack = [] := by
    show z.stack.dropWhile Waiting.isOperator = _
    rw [hlaid.stack, dropWhile_waiting hops rfl]
  have houtput : (z.release Waiting.isOperator).output.toList = t.postorder := by
    rw [toList_output_release, hlaid.stack, released_waiting hops rfl, hlaid.output]
    rfl
  rw [Yard.arrange_eq, hz, Except.ok_bind, finish, hstack, ← houtput]

/-! ## Chains of operators of equal precedence -/

theorem sumChain {op next : Operator} {u v w : List Token} {a b c : Tree String}
    (hop : op = .add ∨ op = .sub) (hnext : next = .add ∨ next = .sub) (hu : Derives .term u a)
    (hv : Derives .term v b) (hw : Derives .term w c) :
    Derives .expression (u ++ .operator op :: (v ++ .operator next :: w))
      (.node next (.node op a b) c) := by
  have h := sum hnext (sum hop (.expression hu) hv) hw
  rwa [List.append_assoc] at h

theorem productChain {op next : Operator} {u v w : List Token} {a b c : Tree String}
    (hop : op = .mul ∨ op = .div) (hnext : next = .mul ∨ next = .div) (hu : Derives .factor u a)
    (hv : Derives .factor v b) (hw : Derives .factor w c) :
    Derives .term (u ++ .operator op :: (v ++ .operator next :: w))
      (.node next (.node op a b) c) := by
  have h := product hnext (product hop (.term hu) hv) hw
  rwa [List.append_assoc] at h

theorem powerChain {u v w : List Token} {a b c : Tree String} (hu : Derives .atom u a)
    (hv : Derives .atom v b) (hw : Derives .atom w c) :
    Derives .factor (u ++ .operator .pow :: (v ++ .operator .pow :: w))
      (.node .pow a (.node .pow b c)) :=
  power hu (power hv (factor hw))

/-- Two operators of equal precedence in a row, with the operands of that precedence. -/
theorem chain {op next : Operator} {u v w : List Token} {a b c : Tree String}
    (hprec : op.precedence = next.precedence) (hu : Derives op.operands u a)
    (hv : Derives op.operands v b) (hw : Derives op.operands w c) :
    Derives .expression (u ++ .operator op :: (v ++ .operator next :: w))
      (if op = .pow then .node op a (.node next b c) else .node next (.node op a b) c) := by
  cases op with
  | add =>
    have hnext : next = .add ∨ next = .sub := by cases next <;> revert hprec <;> decide
    exact sumChain (.inl rfl) hnext hu hv hw
  | sub =>
    have hnext : next = .add ∨ next = .sub := by cases next <;> revert hprec <;> decide
    exact sumChain (.inr rfl) hnext hu hv hw
  | mul =>
    have hnext : next = .mul ∨ next = .div := by cases next <;> revert hprec <;> decide
    exact .expression (productChain (.inl rfl) hnext hu hv hw)
  | div =>
    have hnext : next = .mul ∨ next = .div := by cases next <;> revert hprec <;> decide
    exact .expression (productChain (.inr rfl) hnext hu hv hw)
  | pow =>
    have hnext : next = .pow := by cases next <;> revert hprec <;> decide
    subst hnext
    exact .expression (.term (powerChain hu hv hw))

/-- No list is derived with two trees. -/
theorem unique {w : List Token} {t u : Tree String} (ht : Derives .expression w t)
    (hu : Derives .expression w u) : t = u := by
  have h := ht.arrange_eq
  rw [hu.arrange_eq] at h
  exact Tree.postorder_injective (Except.ok.inj h).symm

end Derives

/-- **The yard computes the postfix order of the parse tree.** For every derivation of
    a token list as an expression, the yard's answer is the postfix order of its tree;
    every other derivation has the same tree; and where two operators of equal precedence
    follow each other between operands, sums and products group to the left, powers to
    the right. -/
theorem arrange_derives {w : List Token} {t : Tree String} (h : Derives .expression w t) :
    Yard.arrange w = .ok t.postorder ∧
    (∀ u, Derives .expression w u → u = t) ∧
    (∀ (op next : Operator) (u v x : List Token) (a b c : Tree String),
      op.precedence = next.precedence → Derives op.operands u a → Derives op.operands v b →
      Derives op.operands x c → w = u ++ .operator op :: (v ++ .operator next :: x) →
      t = if op = .pow then .node op a (.node next b c) else .node next (.node op a b) c) := by
  refine ⟨h.arrange_eq, fun u hu => hu.unique h, ?_⟩
  intro op next u v x a b c hprec hu hv hx hw
  subst hw
  exact h.unique (.chain hprec hu hv hx)

/-- Differences to the left, powers to the right, in one expression. -/
theorem arrange_derives_differences :
    let powers : List Token := [.opening .square, .number "2", .operator .pow, .number "3",
      .operator .pow, .number "4", .closing .square]
    let w : List Token := [.number "8", .operator .sub, .number "1", .operator .sub] ++ powers
    let t : Tree String := .node .sub (.node .sub (.leaf "8") (.leaf "1"))
      (.node .pow (.leaf "2") (.node .pow (.leaf "3") (.leaf "4")))
    Derives .expression w t ∧
    Yard.arrange w = .ok [.number "8", .number "1", .operator .sub, .number "2", .number "3",
      .number "4", .operator .pow, .operator .pow, .operator .sub] ∧
    ∀ u, Derives .expression w u → u = t := by
  intro powers w t
  have hpowers : Derives .atom powers (.node .pow (.leaf "2") (.node .pow (.leaf "3") (.leaf "4"))) :=
    .bracketed .square
      (Derives.powerChain (.number "2") (.number "3") (.number "4")).toExpression
  have h : Derives .expression w t :=
    .sumChain (.inr rfl) (.inr rfl) (.term (.factor (.number "8"))) (.term (.factor (.number "1")))
      (.term (.factor hpowers))
  obtain ⟨horder, hunique, _⟩ := arrange_derives h
  exact ⟨h, horder, hunique⟩

end Calculator
