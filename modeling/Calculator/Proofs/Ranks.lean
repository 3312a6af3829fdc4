import Mathlib.Data.List.Chain
import Calculator.Proofs.Conservation
import Calculator.Proofs.Matching

/-!
# The order of what waits

Before an operator is put on the stack of a yard, all operators on top that yield to it are
released. So what it comes to lie on, if it is an operator, binds less strongly, or both are
powers. In one group of brackets there wait at most a sum, above it a product, and above
that any number of powers.

Results:

* `Ordered.step`, `Ordered.run`: every token keeps the order of the stack.
* `Ordered.length_waiting_le`: how many operators can wait.
-/

namespace Calculator

/-- Of two that wait one on the other, both operators: the upper one binds more strongly, or
    both are powers. -/
def Waiting.RestsOn : Waiting → Waiting → Prop
  | .operator above, .operator below =>
    below.precedence < above.precedence ∨ (below = .pow ∧ above = .pow)
  | _, _ => True

theorem Waiting.restsOn_of_not_yieldsTo {op : Operator} {below : Waiting}
    (h : below.yieldsTo op = false) : (Waiting.operator op).RestsOn below := by
  cases below with
  | opening b => trivial
  | operator x =>
    have hx : x.yieldsTo op = false := h
    show x.precedence < op.precedence ∨ (x = .pow ∧ op = .pow)
    revert hx
    cases x <;> cases op <;> decide

namespace Yard

/-- Everything on the stack rests on what lies below it. -/
def Ordered (stack : List Waiting) : Prop := stack.IsChain Waiting.RestsOn

/-! ## The invariant -/

theorem Ordered.suffix {stack lower : List Waiting} (h : Ordered stack)
    (hsuffix : lower <:+ stack) : Ordered lower := List.IsChain.suffix h hsuffix

theorem Ordered.cons_opening {stack : List Waiting} (h : Ordered stack) (b : Bracket) :
    Ordered (.opening b :: stack) := by
  apply List.IsChain.cons h
  intro below _
  trivial

/-- An operator is put where the operators that yield to it were. -/
theorem Ordered.cons_operator {stack : List Waiting} (h : Ordered stack) (op : Operator) :
    Ordered (.operator op :: stack.dropWhile (Waiting.yieldsTo op)) := by
  apply List.IsChain.cons (h.suffix (List.dropWhile_suffix _))
  intro below hbelow
  have hhead := List.head?_dropWhile_not (Waiting.yieldsTo op) stack
  rw [Option.mem_def.mp hbelow] at hhead
  exact Waiting.restsOn_of_not_yieldsTo hhead

/-- One token. -/
theorem Ordered.step {y z : Yard} {t : Token} (h : Ordered y.stack) (hstep : y.step t = .ok z) :
    Ordered z.stack := by
  cases t with
  | number text => cases hstep; exact h
  | operator op => cases hstep; exact h.cons_operator op
  | opening b => cases hstep; exact h.cons_opening b
  | closing b =>
    obtain ⟨rest, hdrop, rfl⟩ := step_closing hstep
    have hbelow : Ordered (.opening b :: rest) := by
      rw [← hdrop]
      exact h.suffix (List.dropWhile_suffix _)
    exact hbelow.suffix (List.suffix_cons _ _)
  | invalid text => cases hstep

/-- A whole run. -/
theorem Ordered.run (ts : List Token) : ∀ {y z : Yard}, Ordered y.stack → y.run ts = .ok z →
    Ordered z.stack := by
  intro y z h hrun
  exact Except.foldlM_keep Ordered.step ts h hrun

/-- From the empty stack on. -/
theorem ordered_of_run {ts : List Token} {z : Yard} (h : Yard.run {} ts = .ok z) :
    Ordered z.stack := by
  have hstart : Ordered ({} : Yard).stack := List.isChain_nil
  exact hstart.run ts h

/-! ## How many operators wait -/

/-- How many operators other than powers can wait in a group with this one on top. -/
def rank : Waiting → Nat
  | .operator op => min op.precedence 2
  | .opening _ => 0

/-- The rank of what lies on top; there is room for none on an empty stack. -/
def topRank (stack : List Waiting) : Nat := stack.head?.elim 0 rank

/-- The operators on a stack that are not powers. -/
def plain (stack : List Waiting) : Nat := (waiting stack).countP (· ≠ .pow)

/-- What waits are powers and others. -/
theorem length_waiting (stack : List Waiting) :
    (waiting stack).length = plain stack + (waiting stack).count .pow := by
  rw [List.length_eq_countP_add_countP (· == Operator.pow), Nat.add_comm]
  simp [plain, List.count]

theorem topRank_le (stack : List Waiting) : topRank stack ≤ 2 := by
  cases stack with
  | nil => exact Nat.zero_le 2
  | cons x stack =>
    cases x with
    | operator op => exact Nat.min_le_right _ _
    | opening b => exact Nat.zero_le 2

theorem plain_cons_operator (op : Operator) (stack : List Waiting) :
    plain (.operator op :: stack) = plain stack + if op = .pow then 0 else 1 := by
  unfold plain
  have hcons : waiting (.operator op :: stack) = op :: waiting stack := rfl
  rw [hcons, List.countP_cons]
  cases op <;> simp

/-- The top rank grows with every operator that is not a power. -/
theorem Ordered.topRank_add_le {op : Operator} {stack : List Waiting}
    (h : Ordered (.operator op :: stack)) :
    topRank stack + (if op = .pow then 0 else 1) ≤ rank (.operator op) := by
  cases stack with
  | nil => show 0 + _ ≤ min op.precedence 2; cases op <;> decide
  | cons x stack =>
    cases x with
    | opening b => show 0 + _ ≤ min op.precedence 2; cases op <;> decide
    | operator x =>
      have hrests : x.precedence < op.precedence ∨ (x = .pow ∧ op = .pow) :=
        (List.isChain_cons_cons.mp h).1
      show min x.precedence 2 + _ ≤ min op.precedence 2
      revert hrests
      cases x <;> cases op <;> decide

/-- Two for each bracket below, and as many as the top allows; by induction on the stack. -/
theorem Ordered.plain_le {stack : List Waiting} (h : Ordered stack) :
    plain stack ≤ 2 * (opened stack).length + topRank stack := by
  induction stack with
  | nil => exact Nat.zero_le _
  | cons x stack ih =>
    have hbelow := ih (h.suffix (List.suffix_cons _ _))
    cases x with
    | opening b =>
      have hroom := topRank_le stack
      show plain stack ≤ 2 * ((opened stack).length + 1) + 0
      omega
    | operator op =>
      have hgrows := h.topRank_add_le
      rw [plain_cons_operator]
      show _ ≤ 2 * (opened stack).length + rank (.operator op)
      omega

/-- In each group, also outside all brackets, at most two operators other than powers wait. -/
theorem Ordered.length_waiting_le {stack : List Waiting} (h : Ordered stack) :
    (waiting stack).length ≤ 2 * ((opened stack).length + 1) + (waiting stack).count .pow := by
  have hplain := h.plain_le
  have hroom := topRank_le stack
  have hall := length_waiting stack
  omega

end Yard

end Calculator
