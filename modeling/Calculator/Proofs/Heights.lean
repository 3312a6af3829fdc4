import Mathlib.Data.List.Induction
import Calculator.Proofs.Conservation
import Calculator.Proofs.Meaning

/-!
# Where an evaluation stops

How many operands wait is told by the tokens alone: a numeral adds one, an operator takes
one away. So the first token that the evaluation cannot take, and its fault, can be found
by counting; only a divisor has to be looked at as well, and it is the value of the tree
at whose end the quotient stands. A limit is met at numerals only. Up to the first numeral
that meets it, the evaluation with the limit is the one without.

Results:

* `height_eq_length`: the count of the tokens is the number of operands that wait.
* `step_eq_error_iff`: a token is refused exactly when it stops the evaluation.
* `passes_iff_run`: the tokens are all taken exactly when none of them stops it.
* `run_limit`: a run with a limit is a run without, or overflows.
* `evaluate_classified`: the result of an evaluation, with and without a limit.
-/

namespace Calculator

open Token (numerals operators numerals_append operators_append)

namespace Tree

/-- Whatever stands at the end of a list of postfix orders as a postfix order of its own is
    the last of them. -/
theorem gatherAll_spread (trees : List (Tree String)) : gatherAll [] (spread trees) = some trees := by
  induction trees with
  | nil => rfl
  | cons t trees ih => rw [spread, gatherAll_append, ih, Option.bind_some, gatherAll_postorder]

theorem eq_of_spread_cons {t u : Tree String} {trees : List (Tree String)} {front : List Token}
    (h : spread (t :: trees) = front ++ u.postorder) : u = t := by
  have hall := gatherAll_spread (t :: trees)
  rw [h, gatherAll_append] at hall
  obtain ⟨below, _, hlast⟩ := Option.bind_eq_some_iff.mp hall
  rw [gatherAll_postorder] at hlast
  exact (List.cons.inj (Option.some.inj hlast)).1

end Tree

namespace Evaluation

/-! ## Counts and stops -/

/-- How many operands the tokens leave: the numerals less the operators. -/
def height (ts : List Token) : Int := (numerals ts).length - (operators ts).length

/-- The right operand of an operator that follows the tokens `before`: the value of the tree
    at their end. -/
def RightOperand (before : List Token) (b : Float) : Prop :=
  ∃ (front : List Token) (t : Tree String), before = front ++ t.postorder ∧ t.amount = .ok b

/-- `Stops before t e`: after the tokens `before`, the token `t` ends the evaluation with
    the fault `e`. -/
inductive Stops (before : List Token) : Token → ValueFault → Prop
  | stray {t : Token} : t.hasPlace = false → Stops before t (.invalidToken t.text)
  | unreadable {text : String} : Decimal.read? text = none →
      Stops before (.number text) (.invalidToken text)
  | tooFew {op : Operator} : height before < 2 → Stops before (.operator op) (.tooFewOperands op)
  | quotient {b : Float} : 2 ≤ height before → RightOperand before b → (b == 0.0) = true →
      Stops before (.operator .div) .divisionByZero

/-- None of the tokens stops the evaluation. -/
def Passes (ts : List Token) : Prop :=
  ∀ before t after e, ts = before ++ t :: after → ¬ Stops before t e

/-- The token is a numeral that can be read, and finds `most` or more operands waiting. -/
def MeetsLimit (most : Nat) (waiting : Int) (t : Token) : Prop :=
  ∃ text, t = .number text ∧ (Decimal.read? text).isSome = true ∧ (most : Int) ≤ waiting

/-- Some numeral meets the limit, and no token up to it stops the evaluation. -/
def Overflows (most : Nat) (ts : List Token) : Prop :=
  ∃ before t after, ts = before ++ t :: after ∧ Passes (before ++ [t]) ∧
    MeetsLimit most (height before) t

theorem height_append (ts us : List Token) : height (ts ++ us) = height ts + height us := by
  simp only [height, numerals_append, operators_append, List.length_append]
  omega

@[simp] theorem height_number (text : String) : height [.number text] = 1 := rfl

@[simp] theorem height_operator (op : Operator) : height [.operator op] = -1 := rfl

theorem passes_nil : Passes [] := by
  intro before t after e h
  cases before <;> cases h

theorem passes_append_singleton {ts : List Token} {t : Token} :
    Passes (ts ++ [t]) ↔ Passes ts ∧ ∀ e, ¬ Stops ts t e := by
  constructor
  · intro h
    refine ⟨fun before u after e hts => ?_, fun e => h ts t [] e rfl⟩
    exact h before u (after ++ [t]) e (by rw [hts]; simp)
  · rintro ⟨hts, ht⟩ before u after e h
    rcases List.eq_nil_or_concat after with rfl | ⟨after, x, rfl⟩
    · obtain ⟨rfl, hu⟩ := List.append_inj' h rfl
      cases hu
      exact ht e
    · rw [List.concat_eq_append, ← List.cons_append, ← List.append_assoc] at h
      exact hts before u after e (List.append_inj' h rfl).1

/-! ## What waits -/

/-- The operands on the stack are the values of the trees whose postfix orders make up the
    tokens taken so far. -/
def Holds (ts : List Token) (stack : Operands) : Prop :=
  ∃ trees, Tree.spread trees = ts ∧ trees.map Tree.amount = stack.map .ok

theorem Holds.nil : Holds [] [] := ⟨[], rfl, rfl⟩

theorem height_postorder (t : Tree String) : height t.postorder = 1 := by
  induction t with
  | leaf text => rfl
  | node op l r ihl ihr =>
    rw [Tree.postorder, height_append, height_append, ihl, ihr, height_operator]
    rfl

theorem height_spread (trees : List (Tree String)) : height (Tree.spread trees) = trees.length := by
  induction trees with
  | nil => rfl
  | cons t trees ih =>
    rw [Tree.spread, height_append, ih, height_postorder, List.length_cons]
    omega

/-- The count of the tokens is the number of operands that wait. -/
theorem Holds.height_eq_length {ts : List Token} {stack : Operands} (h : Holds ts stack) :
    height ts = stack.length := by
  obtain ⟨trees, rfl, hamounts⟩ := h
  have hlength := congrArg List.length hamounts
  rw [List.length_map, List.length_map] at hlength
  rw [height_spread, hlength]

/-- The right operand is the one on top. -/
theorem Holds.rightOperand_iff {ts : List Token} {b c : Float} {stack : Operands}
    (h : Holds ts (b :: stack)) : RightOperand ts c ↔ c = b := by
  obtain ⟨trees, rfl, hamounts⟩ := h
  cases trees with
  | nil => cases hamounts
  | cons t trees =>
    obtain ⟨ht, _⟩ := List.cons.inj hamounts
    constructor
    · rintro ⟨front, u, hfront, hu⟩
      rw [Tree.eq_of_spread_cons hfront, ht] at hu
      exact (Except.ok.inj hu).symm
    · rintro rfl
      exact ⟨Tree.spread trees, t, rfl, ht⟩

/-- One token more. -/
theorem Holds.step {ts : List Token} {stack next : Operands} {t : Token} (h : Holds ts stack)
    (hstep : Evaluation.step none stack t = .ok next) : Holds (ts ++ [t]) next := by
  obtain ⟨trees, rfl, hamounts⟩ := h
  cases t with
  | number text =>
    rw [step_number] at hstep
    cases hx : operand none stack.length text with
    | error e => rw [hx] at hstep; cases hstep
    | ok x =>
      rw [hx] at hstep
      cases hstep
      have hleaf : (Tree.leaf text).amount = .ok x := by
        rw [← Tree.value_operand_none _ stack.length, Tree.value, hx]
      exact ⟨.leaf text :: trees, rfl, by rw [List.map_cons, List.map_cons, hleaf, hamounts]⟩
  | operator op =>
    obtain _ | ⟨b, _ | ⟨a, rest⟩⟩ := stack
    · cases hstep
    · cases hstep
    · obtain _ | ⟨r, _ | ⟨l, below⟩⟩ := trees
      · cases hamounts
      · cases (List.cons.inj hamounts).2
      · obtain ⟨hr, hbelow⟩ := List.cons.inj hamounts
        obtain ⟨hl, hrest⟩ := List.cons.inj hbelow
        rw [step_operator] at hstep
        cases hx : op.apply a b with
        | error e => rw [hx] at hstep; cases hstep
        | ok x =>
          rw [hx] at hstep
          cases hstep
          have hnode : (Tree.node op l r).amount = .ok x := by
            rw [Tree.amount, hl, Except.ok_bind, hr, Except.ok_bind, hx]
          refine ⟨.node op l r :: below, ?_, by rw [List.map_cons, List.map_cons, hnode, hrest]⟩
          simp only [Tree.spread, Tree.postorder, List.append_assoc]
  | opening b => cases hstep
  | closing b => cases hstep
  | invalid text => cases hstep

/-- A token is refused exactly when it stops the evaluation, and with the fault for which it
    does. -/
theorem Holds.step_eq_error_iff {ts : List Token} {stack : Operands} {t : Token} {e : ValueFault}
    (h : Holds ts stack) : Evaluation.step none stack t = .error e ↔ Stops ts t e := by
  have hheight := h.height_eq_length
  constructor
  · intro hstep
    cases t with
    | number text =>
      cases hread : Decimal.read? text with
      | some x => simp only [Evaluation.step, hread, push] at hstep; cases hstep
      | none => simp only [Evaluation.step, hread] at hstep; cases hstep; exact .unreadable hread
    | operator op =>
      obtain _ | ⟨b, _ | ⟨a, rest⟩⟩ := stack
      · cases hstep; exact .tooFew (by rw [hheight]; decide)
      · cases hstep; exact .tooFew (by rw [hheight, List.length_singleton]; decide)
      · rw [step_operator] at hstep
        cases hx : op.apply a b with
        | ok x => rw [hx] at hstep; cases hstep
        | error e' =>
          rw [hx] at hstep
          cases hstep
          obtain ⟨rfl, hzero, rfl⟩ := Operator.apply_eq_error hx
          refine .quotient ?_ (h.rightOperand_iff.mpr rfl) hzero
          rw [hheight, List.length_cons, List.length_cons]
          omega
    | opening b => cases hstep; exact .stray rfl
    | closing b => cases hstep; exact .stray rfl
    | invalid text => cases hstep; exact .stray rfl
  · intro hstops
    cases hstops with
    | stray hplace =>
      cases t with
      | number text => cases hplace
      | operator op => cases hplace
      | opening b => rfl
      | closing b => rfl
      | invalid text => rfl
    | unreadable hread => simp only [Evaluation.step, hread]
    | tooFew hlow =>
      obtain _ | ⟨b, _ | ⟨a, rest⟩⟩ := stack
      · rfl
      · rfl
      · rw [hheight, List.length_cons, List.length_cons] at hlow
        omega
    | quotient hhigh hright hzero =>
      obtain _ | ⟨b, _ | ⟨a, rest⟩⟩ := stack
      · rw [hheight] at hhigh
        exact absurd hhigh (by decide)
      · rw [hheight, List.length_singleton] at hhigh
        exact absurd hhigh (by decide)
      · obtain rfl := h.rightOperand_iff.mp hright
        rw [step_operator, Operator.apply, if_pos hzero]
        rfl

/-! ## Runs without a limit -/

theorem run_append_singleton {limit : Option Nat} {ts : List Token} {t : Token} {stack : Operands}
    (h : run limit [] ts = .ok stack) : run limit [] (ts ++ [t]) = step limit stack t := by
  rw [run_append, h, Except.ok_bind, run_cons]
  cases step limit stack t <;> rfl

theorem holds_of_run {ts : List Token} : ∀ {stack : Operands},
    run none [] ts = .ok stack → Holds ts stack := by
  induction ts using List.reverseRecOn with
  | nil =>
    intro stack h
    cases h
    exact .nil
  | append_singleton ts t ih =>
    intro stack h
    rw [run_append] at h
    obtain ⟨mid, hmid, hlast⟩ := Except.bind_eq_ok_iff.mp h
    rw [run_cons] at hlast
    obtain ⟨next, hnext, hstack⟩ := Except.bind_eq_ok_iff.mp hlast
    cases hstack
    exact (ih hmid).step hnext

/-- The tokens are all taken exactly when none of them stops the evaluation. -/
theorem passes_iff_run {ts : List Token} : Passes ts ↔ ∃ stack, run none [] ts = .ok stack := by
  induction ts using List.reverseRecOn with
  | nil => exact ⟨fun _ => ⟨[], rfl⟩, fun _ => passes_nil⟩
  | append_singleton ts t ih =>
    rw [passes_append_singleton, ih]
    constructor
    · rintro ⟨⟨stack, hstack⟩, ht⟩
      rw [run_append_singleton hstack]
      cases hstep : step none stack t with
      | ok next => exact ⟨next, rfl⟩
      | error e => exact absurd ((holds_of_run hstack).step_eq_error_iff.mp hstep) (ht e)
    · rintro ⟨next, hnext⟩
      have hts := hnext
      rw [run_append] at hts
      obtain ⟨stack, hstack, _⟩ := Except.bind_eq_ok_iff.mp hts
      refine ⟨⟨stack, hstack⟩, fun e hstops => ?_⟩
      rw [run_append_singleton hstack, (holds_of_run hstack).step_eq_error_iff.mpr hstops] at hnext
      cases hnext

/-- The first token that stops the evaluation decides. -/
theorem run_of_stops {before after : List Token} {t : Token} {e : ValueFault}
    (hbefore : Passes before) (ht : Stops before t e) :
    run none [] (before ++ t :: after) = .error e := by
  obtain ⟨stack, hstack⟩ := passes_iff_run.mp hbefore
  rw [run_append, hstack, Except.ok_bind, run_cons,
    (holds_of_run hstack).step_eq_error_iff.mpr ht, Except.error_bind]

/-- Tokens that do not all pass have a first one that stops the evaluation. -/
theorem exists_stops_of_not_passes {ts : List Token} (h : ¬ Passes ts) :
    ∃ before t after e, ts = before ++ t :: after ∧ Passes before ∧ Stops before t e := by
  cases hrun : run none [] ts with
  | ok stack => exact absurd (passes_iff_run.mpr ⟨stack, hrun⟩) h
  | error e =>
    obtain ⟨before, t, after, stack, hts, hbefore, hstep⟩ :=
      (Except.foldlM_eq_error_iff ts []).mp hrun
    exact ⟨before, t, after, e, hts, passes_iff_run.mpr ⟨stack, hbefore⟩,
      (holds_of_run hbefore).step_eq_error_iff.mp hstep⟩

/-! ## Runs with a limit -/

theorem step_of_meetsLimit {most : Nat} {stack : Operands} {t : Token}
    (h : MeetsLimit most stack.length t) :
    step (some most) stack t = .error (.stackOverflow most) ∧
      ∃ next, step none stack t = .ok next := by
  obtain ⟨text, rfl, hread, hfull⟩ := h
  obtain ⟨x, hx⟩ := Option.isSome_iff_exists.mp hread
  have hfree : step none stack (.number text) = .ok (x :: stack) := by simp only [step, hx, push]
  refine ⟨?_, x :: stack, hfree⟩
  simp only [step, hx, push, if_pos (Int.ofNat_le.mp hfull)]

/-- Where no numeral meets the limit it changes nothing. -/
theorem step_of_not_meetsLimit {most : Nat} {stack : Operands} {t : Token}
    (h : ¬ MeetsLimit most stack.length t) : step (some most) stack t = step none stack t := by
  cases t with
  | number text =>
    cases hread : Decimal.read? text with
    | none => simp only [step, hread]
    | some x =>
      have hroom : ¬ most ≤ stack.length := fun hfull =>
        h ⟨text, rfl, by rw [hread]; rfl, Int.ofNat_le.mpr hfull⟩
      simp only [step, hread, push, if_neg hroom]
  | operator op => rfl
  | opening b => rfl
  | closing b => rfl
  | invalid text => rfl

theorem overflows_append_singleton {most : Nat} {ts : List Token} {t : Token} :
    Overflows most (ts ++ [t]) ↔
      Overflows most ts ∨ Passes (ts ++ [t]) ∧ MeetsLimit most (height ts) t := by
  constructor
  · rintro ⟨before, u, after, hts, hpasses, hmeets⟩
    rcases List.eq_nil_or_concat after with rfl | ⟨after, x, rfl⟩
    · obtain ⟨rfl, hu⟩ := List.append_inj' hts rfl
      cases hu
      exact .inr ⟨hpasses, hmeets⟩
    · rw [List.concat_eq_append, ← List.cons_append, ← List.append_assoc] at hts
      exact .inl ⟨before, u, after, (List.append_inj' hts rfl).1, hpasses, hmeets⟩
  · rintro (⟨before, u, after, rfl, hpasses, hmeets⟩ | ⟨hpasses, hmeets⟩)
    · exact ⟨before, u, after ++ [t], by simp, hpasses, hmeets⟩
    · exact ⟨ts, t, [], rfl, hpasses, hmeets⟩

/-- A run with a limit overflows where a numeral meets the limit before the run has
    stopped; otherwise it is the run without a limit. By induction on the tokens, one more
    at the end. -/
theorem run_limit (most : Nat) (ts : List Token) :
    (Overflows most ts → run (some most) [] ts = .error (.stackOverflow most)) ∧
    (¬ Overflows most ts → run (some most) [] ts = run none [] ts) := by
  induction ts using List.reverseRecOn with
  | nil =>
    refine ⟨?_, fun _ => rfl⟩
    rintro ⟨before, t, after, h, _⟩
    cases before <;> cases h
  | append_singleton ts t ih =>
    rw [overflows_append_singleton]
    by_cases hover : Overflows most ts
    · refine ⟨fun _ => ?_, fun hnot => absurd (.inl hover) hnot⟩
      rw [run_append, ih.1 hover, Except.error_bind]
    have hsame := ih.2 hover
    cases hrun : run none [] ts with
    | error e =>
      -- The run has stopped already, so nothing that comes later meets the limit.
      have hstopped : ¬ Passes ts := fun hpasses => by
        obtain ⟨stack, hstack⟩ := passes_iff_run.mp hpasses
        rw [hrun] at hstack
        cases hstack
      constructor
      · rintro (h | ⟨hpasses, _⟩)
        · exact absurd h hover
        · exact absurd (passes_append_singleton.mp hpasses).1 hstopped
      · intro _
        rw [run_append, run_append, hsame]
        simp only [hrun, Except.error_bind]
    | ok stack =>
      have hlimited : run (some most) [] (ts ++ [t]) = step (some most) stack t :=
        run_append_singleton (hsame.trans hrun)
      have hfree : run none [] (ts ++ [t]) = step none stack t := run_append_singleton hrun
      rw [hlimited, hfree, (holds_of_run hrun).height_eq_length]
      by_cases hmeets : MeetsLimit most stack.length t
      · obtain ⟨hfull, hnext⟩ := step_of_meetsLimit hmeets
        have hpasses : Passes (ts ++ [t]) := by rwa [passes_iff_run, hfree]
        exact ⟨fun _ => hfull, fun hnot => absurd (.inr ⟨hpasses, hmeets⟩) hnot⟩
      · refine ⟨?_, fun _ => step_of_not_meetsLimit hmeets⟩
        rintro (h | ⟨_, h⟩)
        · exact absurd h hover
        · exact absurd h hmeets

/-! ## Evaluations -/

theorem evaluate_of_overflows {most : Nat} {ts : List Token} (h : Overflows most ts) :
    evaluate (some most) ts = .error (.stackOverflow most) := by
  rw [evaluate_eq_run, (run_limit most ts).1 h, Except.error_bind]

theorem evaluate_of_not_overflows {most : Nat} {ts : List Token} (h : ¬ Overflows most ts) :
    evaluate (some most) ts = evaluate none ts := by
  rw [evaluate_eq_run, (run_limit most ts).2 h, evaluate_eq_run]

/-- Without a limit nothing overflows. -/
theorem evaluate_none_ne_stackOverflow (ts : List Token) (most : Nat) :
    evaluate none ts ≠ .error (.stackOverflow most) := by
  intro h
  rw [evaluate_eq_run] at h
  by_cases hpasses : Passes ts
  · obtain ⟨stack, hstack⟩ := passes_iff_run.mp hpasses
    rw [hstack, Except.ok_bind] at h
    unfold result at h
    split at h <;> cases h
  · obtain ⟨before, t, after, e, rfl, hbefore, hstops⟩ := exists_stops_of_not_passes hpasses
    rw [run_of_stops hbefore hstops, Except.error_bind] at h
    cases h
    cases hstops

/-- A higher limit is met by fewer numerals. -/
theorem Overflows.mono {most more : Nat} {ts : List Token} (hle : most ≤ more)
    (h : Overflows more ts) : Overflows most ts := by
  obtain ⟨before, t, after, hts, hpasses, text, ht, hread, hfull⟩ := h
  exact ⟨before, t, after, hts, hpasses, text, ht, hread, by omega⟩

/-- Only numerals take room, so a limit of their number is never met. -/
theorem Overflows.lt_length_numerals {most : Nat} {ts : List Token} (h : Overflows most ts) :
    most < (numerals ts).length := by
  obtain ⟨before, _, after, rfl, _, text, rfl, _, hfull⟩ := h
  rw [height] at hfull
  rw [numerals_append, List.length_append, Token.numerals_number, List.length_cons]
  omega

/-- **Where an evaluation stops.** Without a limit the first token that stops the evaluation
    decides: a token that is neither numeral nor operator or a numeral that cannot be read,
    an operator for which too few operands wait, a quotient by zero; if there is none, the
    evaluation has a value exactly when one operand is left. With a limit the result is an
    overflow if a numeral meets the limit before that, and the same as without a limit
    otherwise; so a higher limit changes nothing but overflows, and a limit of the number of
    numerals is none. -/
theorem evaluate_classified (ts : List Token) :
    (∀ before t after e, ts = before ++ t :: after → Passes before → Stops before t e →
      evaluate none ts = .error e) ∧
    (¬ Passes ts →
      ∃ before t after e, ts = before ++ t :: after ∧ Passes before ∧ Stops before t e) ∧
    (Passes ts → ∃ n : Nat, height ts = n ∧ (n = 1 → ∃ x, evaluate none ts = .ok x) ∧
      (n ≠ 1 → evaluate none ts = .error (.remainingOperands n))) ∧
    (∀ most, (Overflows most ts → evaluate (some most) ts = .error (.stackOverflow most)) ∧
      (¬ Overflows most ts → evaluate (some most) ts = evaluate none ts)) ∧
    (∀ most more, most ≤ more → evaluate (some most) ts ≠ .error (.stackOverflow most) →
      evaluate (some more) ts = evaluate (some most) ts) ∧
    (∀ most, (numerals ts).length ≤ most → evaluate (some most) ts = evaluate none ts) := by
  refine ⟨fun before t after e hts hbefore ht => ?_, exists_stops_of_not_passes, fun hpasses => ?_,
    fun most => ⟨evaluate_of_overflows, evaluate_of_not_overflows⟩,
    fun most more hle hresult => ?_, fun most hcount => ?_⟩
  · rw [evaluate_eq_run, hts, run_of_stops hbefore ht, Except.error_bind]
  · obtain ⟨stack, hstack⟩ := passes_iff_run.mp hpasses
    refine ⟨stack.length, (holds_of_run hstack).height_eq_length, ?_⟩
    rw [evaluate_eq_run, hstack, Except.ok_bind]
    match stack with
    | [] => exact ⟨fun h => absurd h (by decide), fun _ => rfl⟩
    | [x] => exact ⟨fun _ => ⟨x, rfl⟩, fun h => absurd rfl h⟩
    | b :: a :: rest => exact ⟨fun h => by simp at h, fun _ => rfl⟩
  · have hroom : ¬ Overflows most ts := fun h => hresult (evaluate_of_overflows h)
    rw [evaluate_of_not_overflows hroom, evaluate_of_not_overflows fun h => hroom (h.mono hle)]
  · exact evaluate_of_not_overflows fun h => absurd h.lt_length_numerals (by omega)

/-- A quotient by a negative zero that the third numeral overtakes under a limit of two, and
    three operands with no operator. -/
theorem evaluate_classified_quotient :
    let before : List Token := [.number "1", .number "2", .number "-0"]
    let ts := before ++ [.operator .div]
    Passes before ∧ Stops before (.operator .div) .divisionByZero ∧
    evaluate none ts = .error .divisionByZero ∧
    Overflows 2 ts ∧ evaluate (some 2) ts = .error (.stackOverflow 2) ∧
    ¬ Overflows 3 ts ∧ evaluate (some 3) ts = evaluate none ts ∧
    evaluate (some 4) ts = evaluate (some 3) ts ∧
    height before = 3 ∧ evaluate none before = .error (.remainingOperands 3) := by
  intro before ts
  have hpasses : Passes before := passes_iff_run.mpr ⟨_, rfl⟩
  have hright : RightOperand before (-0.0) := ⟨[.number "1", .number "2"], .leaf "-0", rfl, rfl⟩
  have hstops : Stops before (.operator .div) .divisionByZero :=
    .quotient (by decide) hright (by decide)
  have hover : Overflows 2 ts :=
    ⟨[.number "1", .number "2"], .number "-0", [.operator .div], rfl, hpasses, "-0", rfl, rfl,
      by decide⟩
  have hroom : ¬ Overflows 3 ts := fun h => absurd h.lt_length_numerals (by decide)
  obtain ⟨hstopped, _, _, hlimit, hmore, hcount⟩ := evaluate_classified ts
  obtain ⟨_, _, hpassed, _⟩ := evaluate_classified before
  have hquotient := hstopped before _ [] _ rfl hpasses hstops
  obtain ⟨n, hn, _, hleft⟩ := hpassed hpasses
  have hthree : n = 3 := Int.ofNat.inj hn.symm
  subst hthree
  refine ⟨hpasses, hstops, hquotient, hover, (hlimit 2).1 hover, hroom, hcount 3 (by decide),
    hmore 3 4 (by decide) ?_, hn, hleft (by decide)⟩
  rw [(hlimit 3).2 hroom, hquotient]
  decide

end Evaluation

end Calculator
