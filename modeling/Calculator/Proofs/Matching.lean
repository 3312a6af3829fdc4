import Calculator.Proofs.Basic
import Calculator.Yard

/-!
# Matching brackets

A matcher that looks at brackets alone: it goes over the tokens from left to right
with a stack of the brackets that are open, and ignores numerals and operators. The
yard keeps operators on the same stack and moves them at every operator, at every
closing bracket and at the end; none of these moves hides, drops or reorders an open
bracket, so the two always agree on the outcome.

Results:

* `opened_step`: one token does to the open brackets of a yard what it does to the
  matcher.
* `run_eq_error_iff`: the matcher's fault is that of the first token it cannot take.
* `arrange_outcome`: the yard succeeds or fails exactly as the matcher does, and
  never with an internal fault.
-/

namespace Calculator

namespace Matching

/-- Takes one token with the brackets `opened` open, the innermost first. -/
def step (opened : List Bracket) : Token → Except OrderFault (List Bracket)
  | .number _ => .ok opened
  | .operator _ => .ok opened
  | .opening b => .ok (b :: opened)
  | .closing b =>
    match opened with
    | [] => .error (.missingOpening b)
    | a :: rest => if a = b then .ok rest else .error (.mismatch a b)
  | .invalid text => .error (.invalidToken text)

/-- The brackets that are open after the tokens; the first fault ends it. -/
def run (opened : List Bracket) (ts : List Token) : Except OrderFault (List Bracket) :=
  ts.foldlM step opened

/-- No bracket may be open at the end; the innermost one is reported. -/
def finish : List Bracket → Except OrderFault Unit
  | [] => .ok ()
  | a :: _ => .error (.missingClosing a)

/-- Whether the brackets among the tokens match, and the fault if they do not. -/
def check (ts : List Token) : Except OrderFault Unit := run [] ts >>= finish

theorem run_cons (opened : List Bracket) (t : Token) (ts : List Token) :
    run opened (t :: ts) = (step opened t >>= fun next => run next ts) := rfl

/-- The matcher fails at the first token it cannot take, and nowhere else. -/
theorem run_eq_error_iff {fault : OrderFault} (ts : List Token) : ∀ opened,
    run opened ts = .error fault ↔
      ∃ before t after now, ts = before ++ t :: after ∧ run opened before = .ok now ∧
        step now t = .error fault :=
  Except.foldlM_eq_error_iff ts

theorem step_ne_internal (opened : List Bracket) (t : Token) (text : String) :
    step opened t ≠ .error (.internal text) := by
  intro h
  cases t with
  | closing b =>
    cases opened with
    | nil => cases h
    | cons a rest =>
      simp only [step] at h
      split at h <;> cases h
  | number x => cases h
  | operator op => cases h
  | opening b => cases h
  | invalid x => cases h

theorem check_eq_ok_iff {ts : List Token} : check ts = .ok () ↔ run [] ts = .ok [] := by
  rw [check, Except.bind_eq_ok_iff]
  constructor
  · rintro ⟨opened, hrun, hfinish⟩
    cases opened with
    | nil => exact hrun
    | cons a rest => cases hfinish
  · intro h
    exact ⟨[], h, rfl⟩

theorem check_eq_error_iff {ts : List Token} {fault : OrderFault} :
    check ts = .error fault ↔
      (∃ before t after now, ts = before ++ t :: after ∧ run [] before = .ok now ∧
        step now t = .error fault) ∨
      ∃ a rest, run [] ts = .ok (a :: rest) ∧ fault = .missingClosing a := by
  rw [← run_eq_error_iff, check]
  cases hrun : run [] ts with
  | error e => simp
  | ok opened =>
    cases opened with
    | nil => simp [finish]
    | cons a rest =>
      rw [Except.ok_bind, finish]
      constructor
      · intro h
        cases h
        exact .inr ⟨a, rest, rfl, rfl⟩
      · rintro (h | ⟨a', rest', h, rfl⟩)
        · cases h
        · cases h
          rfl

end Matching

/-! ## The yard as a matcher -/

/-- The bracket that waits to be closed. -/
def Waiting.bracket? : Waiting → Option Bracket
  | operator _ => none
  | opening b => some b

namespace Yard

/-- The open brackets on a stack, the innermost first. -/
def opened (stack : List Waiting) : List Bracket := stack.filterMap Waiting.bracket?

theorem opened_operator (op : Operator) (stack : List Waiting) :
    opened (.operator op :: stack) = opened stack := rfl

/-- What is released is never a bracket. -/
theorem opened_dropWhile {done : Waiting → Bool} (hdone : ∀ b, done (.opening b) = false)
    (stack : List Waiting) : opened (stack.dropWhile done) = opened stack := by
  induction stack with
  | nil => rfl
  | cons x stack ih =>
    cases x with
    | opening b => rw [List.dropWhile_cons, hdone]; rfl
    | operator op =>
      rw [List.dropWhile_cons]
      split
      · rw [ih, opened_operator]
      · rfl

/-- Below the operators on top lies the innermost open bracket, if there is one. -/
theorem dropWhile_isOperator (stack : List Waiting) :
    (stack.dropWhile Waiting.isOperator = [] ∧ opened stack = []) ∨
    ∃ b rest, stack.dropWhile Waiting.isOperator = .opening b :: rest ∧
      opened stack = b :: opened rest := by
  induction stack with
  | nil => exact .inl ⟨rfl, rfl⟩
  | cons x stack ih =>
    cases x with
    | opening b => exact .inr ⟨b, stack, rfl, rfl⟩
    | operator op => exact ih

theorem opened_meet (y : Yard) (b : Bracket) :
    ((y.release Waiting.isOperator).meet b).map (fun z => opened z.stack) =
      Matching.step (opened y.stack) (.closing b) := by
  have hstack : (y.release Waiting.isOperator).stack = y.stack.dropWhile Waiting.isOperator := rfl
  rcases dropWhile_isOperator y.stack with ⟨hnil, hopened⟩ | ⟨a, rest, hcons, hopened⟩
  · rw [meet, hstack, hnil, hopened]
    rfl
  · rw [meet, hstack, hcons, hopened]
    by_cases hab : a = b
    · simp [Matching.step, hab]
    · simp [Matching.step, hab]

/-- One token, with or without a fault. -/
theorem opened_step (y : Yard) (t : Token) :
    (y.step t).map (fun z => opened z.stack) = Matching.step (opened y.stack) t := by
  cases t with
  | number text => rfl
  | operator op =>
    show Except.ok (opened (y.stack.dropWhile (Waiting.yieldsTo op))) = _
    rw [opened_dropWhile (fun _ => rfl)]
    rfl
  | opening b => rfl
  | closing b => exact opened_meet y b
  | invalid text => rfl

/-- A whole run. -/
theorem opened_run (ts : List Token) : ∀ y : Yard,
    (y.run ts).map (fun z => opened z.stack) = Matching.run (opened y.stack) ts := by
  intro y
  exact (Except.foldlM_view (fun y t => (opened_step y t).symm) ts y).symm

/-- After tokens that the yard has taken, the matcher has open what waits on its stack. -/
theorem matching_run {ts : List Token} {z : Yard} (h : run {} ts = .ok z) :
    Matching.run [] ts = .ok (opened z.stack) := by
  have hopened := opened_run ts {}
  rw [h] at hopened
  exact hopened.symm

theorem opened_finish (y : Yard) :
    y.finish.map (fun _ => ()) = Matching.finish (opened y.stack) := by
  have hstack : (y.release Waiting.isOperator).stack = y.stack.dropWhile Waiting.isOperator := rfl
  rcases dropWhile_isOperator y.stack with ⟨hnil, hopened⟩ | ⟨a, rest, hcons, hopened⟩
  · rw [finish, hstack, hnil, hopened]
    rfl
  · rw [finish, hstack, hcons, hopened]
    rfl

/-- The yard and the matcher have the same outcome. -/
theorem arrange_eq_check (ts : List Token) :
    (arrange ts).map (fun _ => ()) = Matching.check ts := by
  have hrun : (run {} ts).map (fun z => opened z.stack) = Matching.run [] ts := opened_run ts {}
  rw [arrange_eq, Matching.check, ← hrun]
  cases run {} ts with
  | error e => rfl
  | ok z => exact opened_finish z

theorem arrange_eq_error_iff {ts : List Token} {fault : OrderFault} :
    arrange ts = .error fault ↔ Matching.check ts = .error fault := by
  rw [← arrange_eq_check]
  cases arrange ts with
  | error e => simp
  | ok out => simp

theorem exists_arrange_iff {ts : List Token} :
    (∃ out, arrange ts = .ok out) ↔ Matching.check ts = .ok () := by
  rw [← arrange_eq_check]
  cases arrange ts with
  | error e => simp
  | ok out => simp

/-- **The exact outcome of the yard.** It is that of the matcher, on every token list:
    success exactly when all brackets are closed at the end; the fault of the first token
    that the matcher cannot take, namely an invalid token, a closing bracket with none open
    or one of another family than the innermost open one; otherwise the innermost bracket
    that is left open. An internal fault is never reported. -/
theorem arrange_outcome (ts : List Token) :
    (arrange ts).map (fun _ => ()) = Matching.check ts ∧
    ((∃ out, arrange ts = .ok out) ↔ Matching.run [] ts = .ok []) ∧
    (∀ fault, arrange ts = .error fault ↔
      (∃ before t after now, ts = before ++ t :: after ∧ Matching.run [] before = .ok now ∧
        Matching.step now t = .error fault) ∨
      ∃ a rest, Matching.run [] ts = .ok (a :: rest) ∧ fault = .missingClosing a) ∧
    ∀ text, arrange ts ≠ .error (.internal text) := by
  refine ⟨arrange_eq_check ts, ?_, ?_, ?_⟩
  · rw [exists_arrange_iff, Matching.check_eq_ok_iff]
  · intro fault
    rw [arrange_eq_error_iff, Matching.check_eq_error_iff]
  · intro text h
    rw [arrange_eq_error_iff, Matching.check_eq_error_iff] at h
    rcases h with ⟨before, t, after, now, _, _, hfault⟩ | ⟨a, rest, _, hfault⟩
    · exact Matching.step_ne_internal now t text hfault
    · cases hfault

end Yard

end Calculator
