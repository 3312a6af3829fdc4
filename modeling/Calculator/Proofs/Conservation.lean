import Calculator.Proofs.Grammar
import Calculator.Proofs.Postorder

/-!
# What the yard keeps

Numerals go straight to the output, so they keep their order. Operators go to the
stack and from there to the output, and none is lost or copied on the way.

Results:

* `step_closing`: a closing bracket that is taken meets the bracket that opened it.
* `Balance.step`, `Balance.run`: after every step, output and stack together hold the
  numerals and operators taken so far.
* `numerals_arrange`, `operators_arrange`: the postfix order has the numerals of the
  tokens in their order, and the same operators.
* `hasPlace_arrange`: it has no other tokens.
-/

namespace Calculator

/-! ## Operators among tokens -/

namespace Token

/-- The operator that a token is. -/
def operator? : Token → Option Operator
  | operator op => some op
  | _ => none

/-- The operators among tokens, in their order. -/
def operators (ts : List Token) : List Operator := ts.filterMap operator?

theorem operators_append (ts us : List Token) :
    operators (ts ++ us) = operators ts ++ operators us :=
  List.filterMap_append

/-- Whether a token has a place in a postfix order: numerals and operators have, brackets
    leave no trace. -/
def hasPlace : Token → Bool
  | number _ => true
  | operator _ => true
  | _ => false

theorem hasPlace_iff {t : Token} :
    t.hasPlace = true ↔ (∃ text, t = .number text) ∨ ∃ op, t = .operator op := by
  cases t <;> simp [hasPlace]

end Token

/-- The operator that waits. -/
def Waiting.operator? : Waiting → Option Operator
  | operator op => some op
  | opening _ => none

namespace Yard

open Token (numerals operators numerals_append operators_append)

/-- The operators on a stack, the topmost first. -/
def waiting (stack : List Waiting) : List Operator := stack.filterMap Waiting.operator?

/-! ## Releasing -/

theorem numerals_released (done : Waiting → Bool) (stack : List Waiting) :
    numerals (released done stack) = [] := by
  unfold released
  induction stack.takeWhile done with
  | nil => rfl
  | cons x xs ih =>
    cases x with
    | operator op => exact ih
    | opening b => exact ih

theorem operators_map_token (xs : List Waiting) :
    operators (xs.map Waiting.token) = waiting xs := by
  induction xs with
  | nil => rfl
  | cons x xs ih =>
    cases x with
    | operator op => exact congrArg (op :: ·) ih
    | opening b => exact ih

/-- What is released and what stays make up the stack. -/
theorem operators_released (done : Waiting → Bool) (stack : List Waiting) :
    operators (released done stack) ++ waiting (stack.dropWhile done) = waiting stack := by
  rw [released, operators_map_token, waiting, waiting, ← List.filterMap_append,
    List.takeWhile_append_dropWhile]
  rfl

/-- A closing bracket that is taken meets the bracket that opened it, below the operators
    of its group. -/
theorem step_closing {y z : Yard} {b : Bracket} (h : y.step (.closing b) = .ok z) :
    ∃ rest, y.stack.dropWhile Waiting.isOperator = .opening b :: rest ∧
      z = { y.release Waiting.isOperator with stack := rest } := by
  have hmeet : (y.release Waiting.isOperator).meet b = .ok z := h
  have hstack : (y.release Waiting.isOperator).stack = y.stack.dropWhile Waiting.isOperator := rfl
  rw [meet, hstack] at hmeet
  cases hdrop : y.stack.dropWhile Waiting.isOperator with
  | nil => rw [hdrop] at hmeet; cases hmeet
  | cons x rest =>
    rw [hdrop] at hmeet
    cases x with
    | operator op => cases hmeet
    | opening a =>
      by_cases hab : a = b
      · simp only [if_pos hab] at hmeet
        cases hmeet
        exact ⟨rest, by rw [hab], rfl⟩
      · simp only [if_neg hab] at hmeet
        cases hmeet

/-! ## The balance of a run -/

/-- From the yard `y` to the yard `z`, the tokens `ts` were taken: their numerals are at
    the end of the output, their operators are in the output or on the stack. -/
structure Balance (y z : Yard) (ts : List Token) : Prop where
  numerals_eq : numerals z.output.toList = numerals y.output.toList ++ numerals ts
  operators_perm : (operators z.output.toList ++ waiting z.stack).Perm
    (operators y.output.toList ++ waiting y.stack ++ operators ts)

/-- Releasing moves operators from the stack to the output. -/
theorem operators_release (y : Yard) (done : Waiting → Bool) :
    operators (y.release done).output.toList ++ waiting (y.release done).stack =
      operators y.output.toList ++ waiting y.stack := by
  rw [toList_output_release, operators_append, List.append_assoc]
  congr 1
  exact operators_released done y.stack

theorem numerals_release (y : Yard) (done : Waiting → Bool) :
    numerals (y.release done).output.toList = numerals y.output.toList := by
  rw [toList_output_release, numerals_append, numerals_released, List.append_nil]

/-- One token. -/
theorem Balance.step {y z : Yard} {t : Token} (h : y.step t = .ok z) : Balance y z [t] := by
  cases t with
  | number text =>
    cases h
    constructor
    · rw [Array.toList_push, numerals_append]
    · have hnone : operators [.number text] = [] := rfl
      rw [Array.toList_push, operators_append, hnone, List.append_nil, List.append_nil]
  | operator op =>
    cases h
    constructor
    · exact (numerals_release y _).trans (List.append_nil _).symm
    · have hmove := operators_release y (Waiting.yieldsTo op)
      rw [← hmove]
      refine List.perm_middle.trans ?_
      exact (List.perm_append_singleton op _).symm
  | opening b =>
    cases h
    constructor
    · exact (List.append_nil _).symm
    · exact .of_eq (List.append_nil _).symm
  | closing b =>
    obtain ⟨rest, hdrop, rfl⟩ := step_closing h
    constructor
    · exact (numerals_release y _).trans (List.append_nil _).symm
    · have hmove := operators_release y Waiting.isOperator
      rw [← hmove]
      have hstack : waiting (y.release Waiting.isOperator).stack = waiting rest := by
        show waiting (y.stack.dropWhile Waiting.isOperator) = _
        rw [hdrop]
        rfl
      rw [hstack]
      exact .of_eq (List.append_nil _).symm
  | invalid text => cases h

theorem Balance.trans {x y z : Yard} {ts us : List Token} (h : Balance x y ts)
    (h' : Balance y z us) : Balance x z (ts ++ us) := by
  constructor
  · rw [h'.numerals_eq, h.numerals_eq, numerals_append, List.append_assoc]
  · rw [operators_append, ← List.append_assoc]
    exact h'.operators_perm.trans (h.operators_perm.append_right _)

/-- A whole run, by induction on the tokens. -/
theorem Balance.run (ts : List Token) : ∀ {y z : Yard}, y.run ts = .ok z → Balance y z ts := by
  induction ts with
  | nil =>
    intro y z h
    cases h
    exact ⟨(List.append_nil _).symm, .of_eq (List.append_nil _).symm⟩
  | cons t ts ih =>
    intro y z h
    rw [run_cons] at h
    obtain ⟨m, hm, hz⟩ := Except.bind_eq_ok_iff.mp h
    exact (Balance.step hm).trans (ih hz)

/-! ## Postfix orders -/

/-- At a successful end nothing waits that is not released. -/
theorem finish_eq_ok {y : Yard} {out : List Token} (h : y.finish = .ok out) :
    out = (y.release Waiting.isOperator).output.toList ∧
      (y.release Waiting.isOperator).stack = [] := by
  unfold finish at h
  simp only at h
  split at h
  · next hstack =>
    cases h
    exact ⟨rfl, hstack⟩
  · cases h
  · cases h

/-- A postfix order is the output of the whole run, once the operators that wait are released. -/
theorem exists_run_of_arrange {ts out : List Token} (h : arrange ts = .ok out) :
    ∃ z : Yard, run {} ts = .ok z ∧ out = (z.release Waiting.isOperator).output.toList ∧
      (z.release Waiting.isOperator).stack = [] := by
  rw [arrange_eq] at h
  obtain ⟨z, hz, hfinish⟩ := Except.bind_eq_ok_iff.mp h
  exact ⟨z, hz, finish_eq_ok hfinish⟩

theorem numerals_arrange {ts out : List Token} (h : arrange ts = .ok out) :
    numerals out = numerals ts := by
  obtain ⟨z, hz, rfl, _⟩ := exists_run_of_arrange h
  exact (numerals_release z _).trans (Balance.run ts hz).numerals_eq

theorem operators_arrange {ts out : List Token} (h : arrange ts = .ok out) :
    (operators out).Perm (operators ts) := by
  obtain ⟨z, hz, rfl, hstack⟩ := exists_run_of_arrange h
  have hmove := operators_release z Waiting.isOperator
  rw [hstack] at hmove
  have hall : operators (z.release Waiting.isOperator).output.toList =
      operators z.output.toList ++ waiting z.stack := by
    rw [← hmove]
    exact (List.append_nil _).symm
  rw [hall]
  exact (Balance.run ts hz).operators_perm

/-! ## No other tokens -/

/-- What is released is an operator. -/
theorem hasPlace_released {done : Waiting → Bool} (hdone : ∀ b, done (.opening b) = false)
    (stack : List Waiting) : ∀ t ∈ released done stack, t.hasPlace = true := by
  intro t ht
  obtain ⟨x, hx, rfl⟩ := List.mem_map.mp ht
  cases x with
  | operator op => rfl
  | opening b =>
    have hopening := List.all_eq_true.mp List.all_takeWhile _ hx
    rw [hdone] at hopening
    cases hopening

theorem hasPlace_release {y : Yard} {done : Waiting → Bool} (hdone : ∀ b, done (.opening b) = false)
    (hy : ∀ t ∈ y.output.toList, t.hasPlace = true) :
    ∀ t ∈ (y.release done).output.toList, t.hasPlace = true := by
  intro t ht
  rw [toList_output_release, List.mem_append] at ht
  exact ht.elim (hy t) (hasPlace_released hdone y.stack t)

/-- One token. -/
theorem hasPlace_step {y z : Yard} {t : Token} (h : y.step t = .ok z)
    (hy : ∀ u ∈ y.output.toList, u.hasPlace = true) :
    ∀ u ∈ z.output.toList, u.hasPlace = true := by
  cases t with
  | number text =>
    cases h
    intro u hu
    rw [Array.toList_push, List.mem_append, List.mem_singleton] at hu
    rcases hu with hu | rfl
    · exact hy u hu
    · rfl
  | operator op =>
    cases h
    exact hasPlace_release (fun _ => rfl) hy
  | opening b =>
    cases h
    exact hy
  | closing b =>
    obtain ⟨rest, _, rfl⟩ := step_closing h
    exact hasPlace_release (fun _ => rfl) hy
  | invalid text => cases h

/-- A whole run. -/
theorem hasPlace_run (ts : List Token) : ∀ {y z : Yard}, y.run ts = .ok z →
    (∀ u ∈ y.output.toList, u.hasPlace = true) → ∀ u ∈ z.output.toList, u.hasPlace = true := by
  intro y z h hy
  exact Except.foldlM_keep (fun hs hstep => hasPlace_step hstep hs) ts hy h

theorem hasPlace_arrange {ts out : List Token} (h : arrange ts = .ok out) :
    ∀ t ∈ out, t.hasPlace = true := by
  obtain ⟨z, hz, rfl, _⟩ := exists_run_of_arrange h
  exact hasPlace_release (fun _ => rfl)
    (hasPlace_run ts hz fun _ hu => absurd hu List.not_mem_nil)

end Yard

end Calculator
