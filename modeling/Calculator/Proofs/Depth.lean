import Mathlib.Data.List.Infix
import Calculator.Proofs.Heights
import Calculator.Proofs.Ranks

/-!
# How deep an expression stacks its operands

The yard and the evaluation go over different lists, but they keep step: when a numeral of
an expression goes to the output, as many operators wait on the yard's stack as operands
wait on the evaluation's when it comes to that numeral. For every operator that waits has its
left operand in the output, and nothing else there waits for an operator. How many operators
can wait is told by the brackets around the numeral and by the powers before it.

Results:

* `Yard.height_output`: the operands of the output are the operators that wait, and what the
  tokens themselves leave.
* `Token.height_of_alternate`: before a numeral of an expression the tokens leave nothing.
* `Yard.exists_run_of_arrange_number`: when a numeral of the postfix order came to the output.
* `evaluate_nesting`: the limit under which no expression of a given nesting overflows.
-/

namespace Calculator

namespace Token

/-! ## Nesting -/

/-- Whether a token opens a group. -/
def opens : Token → Bool
  | opening _ => true
  | _ => false

/-- Whether a token closes a group. -/
def closes : Token → Bool
  | closing _ => true
  | _ => false

/-- How many brackets are open at the end of the tokens. -/
def unclosed (ts : List Token) : Nat := ts.countP opens - ts.countP closes

/-- The nesting of the tokens: how many brackets are open at a time, where they are most. -/
def nesting (ts : List Token) : Nat := (ts.inits.map unclosed).foldr max 0

theorem unclosed_le_nesting {u w : List Token} (h : u <+: w) : unclosed u ≤ nesting w := by
  have hle : ∀ (n : Nat) (l : List Nat), n ∈ l → n ≤ l.foldr max 0 := by
    intro n l hn
    induction l with
    | nil => cases hn
    | cons m l ih =>
      rw [List.foldr_cons]
      rcases List.mem_cons.mp hn with rfl | hn
      · exact Nat.le_max_left _ _
      · exact Nat.le_trans (ih hn) (Nat.le_max_right _ _)
  apply hle
  exact List.mem_map_of_mem ((List.mem_inits u w).mpr h)

/-- Without brackets there is no nesting. -/
theorem nesting_eq_zero {ts : List Token} (h : ∀ t ∈ ts, t.opens = false) : nesting ts = 0 := by
  have hall : ∀ l : List (List Token), (∀ u ∈ l, u <+: ts) → (l.map unclosed).foldr max 0 = 0 := by
    intro l hl
    induction l with
    | nil => rfl
    | cons u l ih =>
      have hu : u.countP opens = 0 := by
        rw [List.countP_eq_zero]
        intro t ht
        rw [h t ((hl u List.mem_cons_self).subset ht)]
        decide
      have hzero : unclosed u = 0 := by rw [unclosed, hu, Nat.zero_sub]
      rw [List.map_cons, List.foldr_cons, hzero, ih fun v hv => hl v (List.mem_cons_of_mem _ hv)]
      rfl
  exact hall ts.inits fun u hu => (List.mem_inits u ts).mp hu

theorem count_operators (op : Operator) (ts : List Token) :
    (operators ts).count op = ts.count (.operator op) := by
  rw [operators, List.count, List.countP_filterMap, List.count]
  apply List.countP_congr
  intro t _
  cases t <;> simp [operator?]

/-! ## What the tokens of an expression leave -/

open Evaluation (height height_append)

/-- Before a numeral of an expression there are as many operands as operators, and where an
    operator was due at the start there is one operator more. -/
theorem height_of_alternate {x : String} {after : List Token} (before : List Token) :
    ∀ due, alternate due (before ++ .number x :: after) = true →
      height before = if due then 0 else -1 := by
  induction before with
  | nil =>
    intro due h
    cases due with
    | true => rfl
    | false => cases h
  | cons t before ih =>
    intro due h
    have hcons : height (t :: before) = height [t] + height before := height_append [t] before
    rw [hcons]
    cases due with
    | true =>
      cases t with
      | number text => rw [ih false h]; rfl
      | opening b => rw [ih true h]; rfl
      | operator op => cases h
      | closing b => cases h
      | invalid text => cases h
    | false =>
      cases t with
      | operator op => rw [ih true h]; rfl
      | closing b => rw [ih false h]; rfl
      | number text => cases h
      | opening b => cases h
      | invalid text => cases h

end Token

namespace Matching

open Token (opens closes)

/-- A bracket that is taken is counted. -/
theorem length_step {opened next : List Bracket} {t : Token} (h : step opened t = .ok next) :
    next.length + [t].countP closes = opened.length + [t].countP opens := by
  cases t with
  | number text => cases h; rfl
  | operator op => cases h; rfl
  | opening b => cases h; rfl
  | closing b =>
    cases opened with
    | nil => cases h
    | cons a rest =>
      rw [step] at h
      split at h
      · cases h; rfl
      · cases h
  | invalid text => cases h

theorem length_run (ts : List Token) : ∀ {opened next : List Bracket}, run opened ts = .ok next →
    next.length + ts.countP closes = opened.length + ts.countP opens := by
  induction ts with
  | nil => intro opened next h; cases h; rfl
  | cons t ts ih =>
    intro opened next h
    rw [run_cons] at h
    obtain ⟨mid, hmid, hnext⟩ := Except.bind_eq_ok_iff.mp h
    have hfirst := length_step hmid
    have hrest := ih hnext
    rw [← List.singleton_append, List.countP_append, List.countP_append]
    omega

end Matching

namespace Yard

open Token (numerals operators numerals_append unclosed)
open Evaluation (height)

/-! ## Two stacks -/

/-- The operands that the output leaves are the operators that wait, and what the tokens
    leave. -/
theorem height_output {ts : List Token} {z : Yard} (h : run {} ts = .ok z) :
    height z.output.toList = (waiting z.stack).length + height ts := by
  have hbalance := Balance.run ts h
  have hnumerals := congrArg List.length hbalance.numerals_eq
  have hoperators := hbalance.operators_perm.length_eq
  have hstart : numerals ({} : Yard).output.toList = [] ∧
      operators ({} : Yard).output.toList = [] ∧ waiting ({} : Yard).stack = [] := ⟨rfl, rfl, rfl⟩
  simp only [hstart, List.nil_append, List.length_append] at hnumerals hoperators
  unfold height
  omega

theorem length_opened {ts : List Token} {z : Yard} (h : run {} ts = .ok z) :
    (opened z.stack).length = unclosed ts := by
  have hcount := Matching.length_run ts (matching_run h)
  rw [List.length_nil] at hcount
  unfold unclosed
  omega

/-- What waits after some tokens is bounded by their brackets and powers. -/
theorem length_waiting_le {ts : List Token} {z : Yard} (h : run {} ts = .ok z) :
    (waiting z.stack).length ≤ 2 * (unclosed ts + 1) + ts.count (.operator .pow) := by
  have hordered := (ordered_of_run h).length_waiting_le
  have hall := (Balance.run ts h).operators_perm.count_eq .pow
  have hpowers : (operators ts).count .pow = ts.count (.operator .pow) :=
    Token.count_operators .pow ts
  rw [List.count_append, List.count_append] at hall
  have hempty : (operators ({} : Yard).output.toList ++ waiting ({} : Yard).stack).count .pow = 0 :=
    rfl
  rw [length_opened h] at hordered
  omega

/-! ## When a numeral came to the output -/

/-- A numeral is in front of whatever has none. -/
theorem exists_front_of_numerals {a b front ops : List Token} {x : String}
    (h : a ++ .number x :: b = front ++ ops) (hops : numerals ops = []) :
    ∃ c, front = a ++ .number x :: c := by
  rcases List.append_eq_append_iff.mp h with ⟨c, hfront, hrest⟩ | ⟨c, _, hrest⟩
  · cases c with
    | nil =>
      rw [List.nil_append] at hrest
      rw [← hrest] at hops
      cases hops
    | cons t c =>
      obtain ⟨rfl, _⟩ := List.cons.inj hrest
      exact ⟨c, hfront⟩
  · rw [hrest, numerals_append] at hops
    cases (List.append_eq_nil_iff.mp hops).2

/-- One token puts itself to the output if it is a numeral, and no other numeral. -/
theorem output_step {y z : Yard} {t : Token} (h : y.step t = .ok z) :
    (∃ text, t = .number text ∧ z.output.toList = y.output.toList ++ [.number text]) ∨
    ∃ ops, z.output.toList = y.output.toList ++ ops ∧ numerals ops = [] := by
  cases t with
  | number text => cases h; exact .inl ⟨text, rfl, Array.toList_push⟩
  | operator op =>
    cases h
    exact .inr ⟨_, toList_output_release y _, numerals_released _ _⟩
  | opening b => cases h; exact .inr ⟨[], (List.append_nil _).symm, rfl⟩
  | closing b =>
    obtain ⟨rest, _, rfl⟩ := step_closing h
    exact .inr ⟨_, toList_output_release y _, numerals_released _ _⟩
  | invalid text => cases h

/-- By induction on the tokens, one more at the end. -/
theorem exists_run_of_number {x : String} (ts : List Token) : ∀ {z : Yard} {a b : List Token},
    run {} ts = .ok z → z.output.toList = a ++ .number x :: b →
    ∃ u v y, ts = u ++ .number x :: v ∧ run {} u = .ok y ∧ y.output.toList = a := by
  induction ts using List.reverseRecOn with
  | nil =>
    intro z a b h hout
    cases h
    cases a <;> cases hout
  | append_singleton ts t ih =>
    intro z a b h hout
    rw [run_append] at h
    obtain ⟨m, hm, hlast⟩ := Except.bind_eq_ok_iff.mp h
    rw [run_cons] at hlast
    obtain ⟨z', hstep, hz⟩ := Except.bind_eq_ok_iff.mp hlast
    cases hz
    have hearlier : ∀ {c : List Token}, m.output.toList = a ++ .number x :: c →
        ∃ u v y, ts ++ [t] = u ++ .number x :: v ∧ run {} u = .ok y ∧ y.output.toList = a := by
      intro c hc
      obtain ⟨u, v, y, rfl, hy, ha⟩ := ih hm hc
      exact ⟨u, v ++ [t], y, by simp, hy, ha⟩
    rcases output_step hstep with ⟨text, rfl, hnumber⟩ | ⟨ops, hops, hnone⟩
    · rw [hout] at hnumber
      rcases List.eq_nil_or_concat b with rfl | ⟨b, s, rfl⟩
      · -- it is the token itself
        obtain ⟨ha, hx⟩ := List.append_inj' hnumber rfl
        cases hx
        exact ⟨ts, [], m, rfl, hm, ha.symm⟩
      · rw [List.concat_eq_append, ← List.cons_append, ← List.append_assoc] at hnumber
        exact hearlier (List.append_inj' hnumber rfl).1.symm
    · rw [hout] at hops
      obtain ⟨c, hc⟩ := exists_front_of_numerals hops hnone
      exact hearlier hc

/-- A numeral of the postfix order came to the output when it was read, behind all that
    stands before it. -/
theorem exists_run_of_arrange_number {ts p a b : List Token} {x : String}
    (h : arrange ts = .ok p) (hp : p = a ++ .number x :: b) :
    ∃ u v y, ts = u ++ .number x :: v ∧ run {} u = .ok y ∧ y.output.toList = a := by
  obtain ⟨z, hz, hout, _⟩ := exists_run_of_arrange h
  rw [hp, toList_output_release] at hout
  obtain ⟨c, hc⟩ := exists_front_of_numerals hout (numerals_released _ _)
  exact exists_run_of_number ts hz hc

end Yard

/-! ## Expressions -/

namespace Evaluation

/-- Under any limit the operands that wait are those that the tokens leave. -/
theorem height_eq_length {limit : Option Nat} {ts : List Token} {stack : Operands}
    (h : run limit [] ts = .ok stack) : height ts = stack.length := by
  cases limit with
  | none => exact (holds_of_run h).height_eq_length
  | some most =>
    by_cases hover : Overflows most ts
    · rw [(run_limit most ts).1 hover] at h
      cases h
    · rw [(run_limit most ts).2 hover] at h
      exact (holds_of_run h).height_eq_length

theorem evaluate_ne_stackOverflow {most : Nat} {ts : List Token} (h : ¬ Overflows most ts)
    (limit : Nat) : evaluate (some most) ts ≠ .error (.stackOverflow limit) := by
  rw [evaluate_of_not_overflows h]
  exact evaluate_none_ne_stackOverflow ts limit

end Evaluation

namespace Derives

open Token (nesting)
open Evaluation (height Overflows)

variable {w : List Token} {t : Tree String}

/-- When a numeral of the postfix order came to the output, as many operators waited as
    operands wait before it. -/
theorem exists_run_of_number (h : Derives .expression w t) {a b : List Token} {x : String}
    (hp : t.postorder = a ++ .number x :: b) :
    ∃ u v y, w = u ++ .number x :: v ∧ Yard.run {} u = .ok y ∧ y.output.toList = a ∧
      height a = (Yard.waiting y.stack).length := by
  obtain ⟨u, v, y, rfl, hy, ha⟩ := Yard.exists_run_of_arrange_number h.arrange_eq hp
  have hleft : height u = 0 := Token.height_of_alternate u true h.alternate
  have hheight := Yard.height_output hy
  rw [ha, hleft, Int.add_zero] at hheight
  exact ⟨u, v, y, rfl, hy, ha, hheight⟩

theorem not_overflows (h : Derives .expression w t) {most : Nat}
    (hmost : 2 * (nesting w + 1) + w.count (.operator .pow) + 1 ≤ most) :
    ¬ Overflows most t.postorder := by
  rintro ⟨a, _, b, hp, _, x, rfl, _, hfull⟩
  obtain ⟨u, v, y, rfl, hy, _, hheight⟩ := h.exists_run_of_number hp
  have hwaiting := Yard.length_waiting_le hy
  have hnesting := Token.unclosed_le_nesting (List.prefix_append u (.number x :: v))
  have hpowers : u.count (.operator .pow) ≤ (u ++ .number x :: v).count (.operator .pow) :=
    (List.sublist_append_left u _).count_le _
  omega

end Derives

/-- **How deep an expression stacks its operands.** With `d` brackets open where they are
    most, and `k` powers, no expression overflows a limit of `2 * (d + 1) + k + 1` operands or
    more, and one without brackets and powers none of three or more. For when a numeral of the
    postfix order is evaluated, as many operands wait as operators waited on the yard's stack
    when that numeral came to the output. -/
theorem evaluate_nesting {w : List Token} {t : Tree String} (h : Derives .expression w t) :
    ∃ p, Yard.arrange w = .ok p ∧
    (∀ most, 2 * (Token.nesting w + 1) + w.count (.operator .pow) + 1 ≤ most →
      ∀ limit, Evaluation.evaluate (some most) p ≠ .error (.stackOverflow limit)) ∧
    ((∀ s ∈ w, (∃ x, s = .number x) ∨ ∃ op, s = .operator op ∧ op ≠ .pow) →
      ∀ most, 3 ≤ most →
        ∀ limit, Evaluation.evaluate (some most) p ≠ .error (.stackOverflow limit)) ∧
    ∀ a x b, p = a ++ .number x :: b →
      ∃ u v y, w = u ++ .number x :: v ∧ Yard.run {} u = .ok y ∧ y.output.toList = a ∧
        ∀ limit stack, Evaluation.run limit [] a = .ok stack →
          stack.length = (Yard.waiting y.stack).length := by
  refine ⟨t.postorder, h.arrange_eq, fun most hmost => ?_, fun hflat most hmost => ?_, ?_⟩
  · exact Evaluation.evaluate_ne_stackOverflow (h.not_overflows hmost)
  · have hnesting : Token.nesting w = 0 := by
      apply Token.nesting_eq_zero
      intro s hs
      rcases hflat s hs with ⟨x, rfl⟩ | ⟨op, rfl, _⟩ <;> rfl
    have hpowers : w.count (.operator .pow) = 0 := by
      rw [List.count_eq_zero]
      intro hmem
      rcases hflat _ hmem with ⟨x, hx⟩ | ⟨op, hop, hne⟩
      · cases hx
      · exact hne (Token.operator.inj hop).symm
    apply Evaluation.evaluate_ne_stackOverflow (h.not_overflows _)
    omega
  · intro a x b hp
    obtain ⟨u, v, y, hw, hy, ha, hheight⟩ := h.exists_run_of_number hp
    refine ⟨u, v, y, hw, hy, ha, fun limit stack hstack => ?_⟩
    have hlength := Evaluation.height_eq_length hstack
    omega

/-- A product in a sum, and both once more in brackets: neither limit can be lower. -/
theorem evaluate_nesting_tight :
    let flat : List Token :=
      [.number "3", .operator .add, .number "4", .operator .mul, .number "5"]
    let w : List Token := [.number "1", .operator .add, .number "2", .operator .mul] ++
      .opening .square :: (flat ++ [.closing .square])
    let flatPostfix : List Token :=
      [.number "3", .number "4", .number "5", .operator .mul, .operator .add]
    let p : List Token :=
      [.number "1", .number "2"] ++ flatPostfix ++ [.operator .mul, .operator .add]
    (∃ t, Derives .expression w t) ∧ 2 * (Token.nesting w + 1) + w.count (.operator .pow) + 1 = 5 ∧
    Evaluation.evaluate (some 4) p = .error (.stackOverflow 4) ∧
    (∀ limit, Evaluation.evaluate (some 5) p ≠ .error (.stackOverflow limit)) ∧
    (∃ t, Derives .expression flat t) ∧
    Evaluation.evaluate (some 2) flatPostfix = .error (.stackOverflow 2) ∧
    ∀ limit, Evaluation.evaluate (some 3) flatPostfix ≠ .error (.stackOverflow limit) := by
  intro flat w flatPostfix p
  have hatom : ∀ x, Derives .atom [.number x] (.leaf x) := .number
  have hflat : Derives .expression flat
      (.node .add (.leaf "3") (.node .mul (.leaf "4") (.leaf "5"))) :=
    .sum (.inl rfl) (hatom "3").toExpression
      (.product (.inl rfl) (.term (.factor (hatom "4"))) (.factor (hatom "5")))
  have hw : Derives .expression w (.node .add (.leaf "1") (.node .mul (.leaf "2")
      (.node .add (.leaf "3") (.node .mul (.leaf "4") (.leaf "5"))))) :=
    .sum (.inl rfl) (hatom "1").toExpression
      (.product (.inl rfl) (.term (.factor (hatom "2"))) (.factor (.bracketed .square hflat)))
  have hbound : 2 * (Token.nesting w + 1) + w.count (.operator .pow) + 1 = 5 := by decide
  obtain ⟨q, hq, hroom, _, _⟩ := evaluate_nesting hw
  cases hq
  obtain ⟨r, hr, _, hthree, _⟩ := evaluate_nesting hflat
  cases hr
  refine ⟨⟨_, hw⟩, hbound, rfl, hroom 5 hbound.le, ⟨_, hflat⟩, rfl, hthree ?_ 3 le_rfl⟩
  intro s hs
  simp only [flat, List.mem_cons, List.not_mem_nil, or_false] at hs
  rcases hs with rfl | rfl | rfl | rfl | rfl
  · exact .inl ⟨_, rfl⟩
  · exact .inr ⟨_, rfl, nofun⟩
  · exact .inl ⟨_, rfl⟩
  · exact .inr ⟨_, rfl, nofun⟩
  · exact .inl ⟨_, rfl⟩

end Calculator
