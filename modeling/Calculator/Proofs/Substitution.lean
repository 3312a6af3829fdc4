import Calculator.Proofs.Conservation
import Calculator.Proofs.Groups

/-!
# A bracketed list in the place of a numeral

For the yard, a list in brackets is one operand. While it is read, nothing below its
opening bracket is looked at, and the closing bracket releases what the end of the list
would have released; so the list puts its own postfix order out and leaves the stack as
it found it, as a numeral does. What was put out before is never looked at again.

Results:

* `Yard.run_prepend`: the output before does not matter for what comes after.
* `Yard.run_above`: nothing below an open bracket is looked at, nor changed.
* `Yard.emits_enclosed`: a list in brackets puts its postfix order out, and no more.
* `Yard.Emits.arrange_append`: what becomes of an operand within other tokens.
* `Yard.arrange_substituted`: a bracketed list in the place of a numeral.
-/

namespace Calculator

namespace Yard

open Token (numerals numerals_append)

/-! ## The output before -/

/-- The yard with `out` put out before its own output. -/
def prepend (out : List Token) (y : Yard) : Yard := { y with output := out.toArray ++ y.output }

@[simp] theorem stack_prepend (out : List Token) (y : Yard) : (y.prepend out).stack = y.stack := rfl

theorem release_prepend (out : List Token) (y : Yard) (done : Waiting → Bool) :
    (y.prepend out).release done = (y.release done).prepend out := by
  have houtput : out.toArray ++ y.output ++ released done y.stack =
      out.toArray ++ (y.output ++ released done y.stack) := by
    apply Array.toList_inj.mp
    simp
  unfold release prepend
  rw [houtput]

theorem meet_prepend (out : List Token) (y : Yard) (b : Bracket) :
    (y.prepend out).meet b = (y.meet b).map (prepend out) := by
  unfold meet
  rw [stack_prepend]
  split
  · rfl
  · split <;> rfl
  · rfl

/-- One token. -/
theorem step_prepend (out : List Token) (y : Yard) (t : Token) :
    (y.prepend out).step t = (y.step t).map (prepend out) := by
  cases t with
  | number text => simp [step, prepend]
  | operator op =>
    simp only [step, release_prepend]
    rfl
  | opening b => rfl
  | closing b => rw [step, release_prepend, meet_prepend, step]
  | invalid text => rfl

/-- A whole run. -/
theorem run_prepend (out : List Token) (ts : List Token) : ∀ y : Yard,
    (y.prepend out).run ts = (y.run ts).map (prepend out) :=
  Except.foldlM_view (step_prepend out) ts

theorem finish_prepend (out : List Token) (y : Yard) :
    (y.prepend out).finish = y.finish.map (out ++ ·) := by
  unfold finish
  simp only [release_prepend, stack_prepend]
  split
  · simp [prepend]
  · rfl
  · rfl

/-- What the tokens `ts` put out with `stack` waiting, up to the end. -/
def remainder (stack : List Waiting) (ts : List Token) : Except OrderFault (List Token) :=
  run { stack } ts >>= finish

theorem run_bind_finish (y : Yard) (ts : List Token) :
    (y.run ts >>= finish) = (remainder y.stack ts).map (y.output.toList ++ ·) := by
  have hrun : y.run ts = (run { stack := y.stack } ts).map (prepend y.output.toList) := by
    rw [← run_prepend]
    simp [prepend]
  rw [hrun, remainder]
  cases run { stack := y.stack } ts with
  | error e => rfl
  | ok z => exact finish_prepend _ z

/-! ## Above an open bracket -/

/-- The yard with an open bracket and the stack `below` under its own stack. -/
def above (b : Bracket) (below : List Waiting) (y : Yard) : Yard :=
  { y with stack := y.stack ++ .opening b :: below }

section Above

variable {b : Bracket} {below : List Waiting}

/-- What is released ends at the bracket. -/
theorem release_above {done : Waiting → Bool} (hdone : ∀ a, done (.opening a) = false)
    (y : Yard) : (y.above b below).release done = (y.release done).above b below := by
  have hbelow : (Waiting.opening b :: below).takeWhile done = [] := by
    rw [List.takeWhile_cons, hdone]
    rfl
  have htake : (y.stack ++ .opening b :: below).takeWhile done = y.stack.takeWhile done := by
    rw [List.takeWhile_append, hbelow, List.append_nil]
    split
    · next hall => exact (List.takeWhile_prefix done).eq_of_length hall |>.symm
    · rfl
  have hdrop : (y.stack ++ .opening b :: below).dropWhile done =
      y.stack.dropWhile done ++ .opening b :: below := by
    rw [List.dropWhile_append, Run.dropWhile_eq_self hbelow]
    split
    · next hnil => rw [List.isEmpty_iff.mp hnil, List.nil_append]
    · rfl
  unfold release above released
  simp only
  rw [htake, hdrop]

/-- A closing bracket meets the topmost opening one, be it the yard's own or the one below. -/
theorem step_closing_above {y : Yard} {a : Bracket} {rest : List Waiting}
    (h : (y.release Waiting.isOperator).stack ++ .opening b :: below = .opening a :: rest) :
    (y.above b below).step (.closing a) =
      .ok { y.release Waiting.isOperator with stack := rest } := by
  have hrelease : (y.above b below).release Waiting.isOperator =
      (y.release Waiting.isOperator).above b below := release_above (fun _ => rfl) y
  have hstack : ((y.above b below).release Waiting.isOperator).stack = .opening a :: rest := by
    rw [hrelease]
    exact h
  rw [step_closing_of_opening hstack, hrelease]
  rfl

/-- One token. -/
theorem step_above {y z : Yard} {t : Token} (h : y.step t = .ok z) :
    (y.above b below).step t = .ok (z.above b below) := by
  cases t with
  | number text =>
    cases h
    rfl
  | operator op =>
    cases h
    have hrelease : (y.above b below).release (Waiting.yieldsTo op) =
        (y.release (Waiting.yieldsTo op)).above b below := release_above (fun _ => rfl) y
    simp only [step, hrelease]
    rfl
  | opening a =>
    cases h
    rfl
  | closing a =>
    obtain ⟨rest, hdrop, rfl⟩ := step_closing h
    exact step_closing_above (congrArg (· ++ Waiting.opening b :: below) hdrop)
  | invalid text => cases h

/-- A whole run. -/
theorem run_above (ts : List Token) : ∀ {y z : Yard}, y.run ts = .ok z →
    (y.above b below).run ts = .ok (z.above b below) :=
  Except.foldlM_follow step_above ts

end Above

/-! ## Operands -/

/-- Whatever waits, the tokens `w` put `out` out and leave the stack as it is. -/
def Emits (w out : List Token) : Prop :=
  ∀ y : Yard, y.run w = .ok { y with output := y.output ++ out }

theorem emits_number (text : String) : Emits [.number text] [.number text] := by
  intro y
  rw [run_cons, step, Except.ok_bind, run_nil]
  simp

/-- A list in brackets puts its postfix order out: the closing bracket releases what the end
    of the list would have released. -/
theorem emits_enclosed {u out : List Token} (h : arrange u = .ok out) (b : Bracket) :
    Emits (.opening b :: (u ++ [.closing b])) out := by
  obtain ⟨z, hz, rfl, hstack⟩ := exists_run_of_arrange h
  intro y
  -- the list is read above its opening bracket, and behind what was put out before it
  have hopen : ({ y with stack := .opening b :: y.stack } : Yard) =
      prepend y.output.toList (above b y.stack {}) := by simp [prepend, above]
  have hclose : (z.above b y.stack).step (.closing b) =
      .ok { z.release Waiting.isOperator with stack := y.stack } :=
    step_closing_above (congrArg (· ++ Waiting.opening b :: y.stack) hstack)
  have houtput : y.output.toList.toArray ++ (z.release Waiting.isOperator).output =
      y.output ++ (z.release Waiting.isOperator).output.toList := by
    apply Array.toList_inj.mp
    simp
  rw [run_cons, step, Except.ok_bind, hopen, run_append, run_prepend, run_above u hz,
    Except.map_ok, Except.ok_bind, run_cons, step_prepend, hclose, Except.map_ok, Except.ok_bind,
    run_nil, ← houtput]
  rfl

/-- What becomes of an operand within other tokens. -/
theorem Emits.arrange_append {w out : List Token} (h : Emits w out) (l r : List Token) :
    arrange (l ++ (w ++ r)) = (run {} l >>= fun y =>
      (remainder y.stack r).map fun q => y.output.toList ++ (out ++ q)) := by
  rw [arrange_eq, run_append]
  cases run {} l with
  | error e => rfl
  | ok y =>
    rw [Except.ok_bind, Except.ok_bind, run_append, h y, Except.ok_bind, run_bind_finish]
    simp

/-- An operand alone. -/
theorem Emits.arrange {w out : List Token} (h : Emits w out) : Yard.arrange w = .ok out := by
  have happend := h.arrange_append [] []
  rw [List.nil_append, List.append_nil] at happend
  rw [happend]
  show Except.ok ([] ++ (out ++ [])) = _
  rw [List.nil_append, List.append_nil]

/-! ## Substitution -/

/-- The list with brackets around it, the outermost pair first. -/
def enclosed (bs : List Bracket) (u : List Token) : List Token :=
  bs.foldr (fun b w => .opening b :: (w ++ [.closing b])) u

theorem arrange_enclosed {u out : List Token} (h : arrange u = .ok out) (bs : List Bracket) :
    arrange (enclosed bs u) = .ok out := by
  induction bs with
  | nil => exact h
  | cons b bs ih => exact (emits_enclosed ih b).arrange

/-- Behind a numeral there are more numerals than before it. -/
theorem length_numerals_lt {a b c d : List Token} {text : String}
    (h : a ++ .number text :: b = c ++ d) (hlt : a.length < c.length) :
    (numerals a).length < (numerals c).length := by
  obtain ⟨m, rfl, _⟩ := exists_between h hlt
  rw [numerals_append, List.length_append, Token.numerals_number, List.length_cons]
  omega

/-- A numeral is found in a list by the number of numerals before it. -/
theorem append_number_inj {a b c d : List Token} {text : String}
    (h : a ++ .number text :: b = c ++ .number text :: d)
    (hcount : (numerals a).length = (numerals c).length) : a = c ∧ b = d := by
  rcases Nat.lt_trichotomy a.length c.length with hlt | heq | hgt
  · exact absurd hcount (Nat.ne_of_lt (length_numerals_lt h hlt))
  · obtain ⟨hac, hbd⟩ := List.append_inj h heq
    exact ⟨hac, (List.cons.inj hbd).2⟩
  · exact absurd hcount.symm (Nat.ne_of_lt (length_numerals_lt h.symm hgt))

/-- The place of a numeral in the postfix order: after as many numerals as were read before
    it. -/
theorem arrange_number {l r out : List Token} {text : String}
    (h : arrange (l ++ .number text :: r) = .ok out) :
    ∃ y q, run {} l = .ok y ∧ remainder y.stack r = .ok q ∧
      out = y.output.toList ++ .number text :: q ∧
      (numerals y.output.toList).length = (numerals l).length := by
  have happend := (emits_number text).arrange_append l r
  rw [List.singleton_append, h] at happend
  obtain ⟨y, hy, hrest⟩ := Except.bind_eq_ok_iff.mp happend.symm
  cases hq : remainder y.stack r with
  | error e => rw [hq] at hrest; cases hrest
  | ok q =>
    rw [hq] at hrest
    refine ⟨y, q, hy, hq, (Except.ok.inj hrest).symm, ?_⟩
    rw [(Balance.run l hy).numerals_eq]
    rfl

/-- **A bracketed list is one operand.** Let a list have a postfix order. In brackets it may
    take the place of any numeral among any tokens: a fault stays the same fault, and in the
    postfix order its own takes the place of the numeral, which is found by the number of
    numerals before it. So brackets around a whole list never change its postfix order. -/
theorem arrange_substituted {u p : List Token} (hu : arrange u = .ok p) (b : Bracket)
    (l r : List Token) (text : String) :
    (∀ fault, arrange (l ++ [Token.number text] ++ r) = .error fault →
      arrange (l ++ [Token.opening b] ++ u ++ [Token.closing b] ++ r) = .error fault) ∧
    (∀ q, arrange (l ++ [Token.number text] ++ r) = .ok q →
      ∃ q₁ q₂, q = q₁ ++ [Token.number text] ++ q₂ ∧
        (numerals q₁).length = (numerals l).length) ∧
    (∀ q₁ q₂, arrange (l ++ [Token.number text] ++ r) = .ok (q₁ ++ [Token.number text] ++ q₂) →
      (numerals q₁).length = (numerals l).length →
      arrange (l ++ [Token.opening b] ++ u ++ [Token.closing b] ++ r) = .ok (q₁ ++ p ++ q₂)) ∧
    ∀ bs, arrange (enclosed bs u) = .ok p := by
  have hnumber := (emits_number text).arrange_append l r
  have hbracketed := (emits_enclosed hu b).arrange_append l r
  simp only [List.append_assoc, List.cons_append, List.nil_append] at hnumber hbracketed ⊢
  refine ⟨fun fault hfault => ?_, fun q hq => ?_, fun q₁ q₂ hq hcount => ?_, arrange_enclosed hu⟩
  · rw [hnumber] at hfault
    rw [hbracketed]
    cases hl : run {} l with
    | error e => rw [hl] at hfault; exact hfault
    | ok y =>
      rw [hl, Except.ok_bind] at hfault
      rw [Except.ok_bind]
      cases hr : remainder y.stack r with
      | error e => rw [hr] at hfault; exact hfault
      | ok q => rw [hr] at hfault; cases hfault
  · obtain ⟨y, q', _, _, rfl, hcount⟩ := arrange_number hq
    exact ⟨_, q', rfl, hcount⟩
  · obtain ⟨y, q', hl, hr, hout, hcount'⟩ := arrange_number hq
    obtain ⟨rfl, rfl⟩ := append_number_inj hout (hcount.trans hcount'.symm)
    rw [hbracketed, hl, Except.ok_bind, hr, Except.map_ok]

/-- A list that is no expression, in the place of the second of two equal numerals. -/
theorem arrange_substituted_twins :
    let u : List Token := [.number "3", .operator .add, .number "1", .number "4"]
    let p : List Token := [.number "3", .number "1", .number "4", .operator .add]
    let l : List Token := [.number "1", .operator .mul]
    let r : List Token := [.operator .sub, .number "2"]
    let q₁ : List Token := [.number "1"]
    let q₂ : List Token := [.operator .mul, .number "2", .operator .sub]
    arrange u = .ok p ∧
    arrange (l ++ [Token.number "1"] ++ r) = .ok (q₁ ++ [Token.number "1"] ++ q₂) ∧
    arrange (l ++ [Token.opening .square] ++ u ++ [Token.closing .square] ++ r) =
      .ok (q₁ ++ p ++ q₂) ∧
    arrange (enclosed [.round, .square] u) = .ok p := by
  intro u p l r q₁ q₂
  have hu : arrange u = .ok p := by rfl
  have hplain : arrange (l ++ [Token.number "1"] ++ r) = .ok (q₁ ++ [Token.number "1"] ++ q₂) := by
    rfl
  obtain ⟨_, _, hok, hbrackets⟩ := arrange_substituted hu .square l r "1"
  exact ⟨hu, hplain, hok q₁ q₂ hplain rfl, hbrackets _⟩

end Yard

end Calculator
