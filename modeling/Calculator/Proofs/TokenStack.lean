import Calculator.Proofs.Matching
import Calculator.Stack

/-!
# The yard on a stack of tokens

The stack of a yard has room for operators and opening brackets only, and what is released
leaves it in one go. Here is the same work done on a stack that has room for every token. The
token on top is looked at before each move, tokens are moved one at a time, and a token that
should not be there is a fault of its own. None of these faults is ever met: token by token
the two yards do the same, so what is said of the one is said of the other.

Results:

* `popWhile_eq`: moving tokens one at a time moves the longest run of them.
* `step_tokens`, `run_tokens`: the two yards keep step, faults included.
* `arrange_tokens`: they bring tokens into the same postfix order.
-/

namespace Calculator

namespace Token

/-- Whether the token is an operator. -/
def isOperator : Token → Bool
  | operator _ => true
  | _ => false

/-- Whether the token is an operator that is complete before `below`. -/
def yieldsTo (below : Operator) : Token → Bool
  | operator above => above.yieldsTo below
  | _ => false

end Token

/-- Tokens in postfix order, and a stack with room for every token. -/
structure TokenYard where
  output : Array Token := #[]
  stack : Stack Token := []

namespace TokenYard

/-- Moves the token on top to the output as long as it is `done`. -/
def popWhile (done : Token → Bool) (output : Array Token) : Stack Token → TokenYard
  | [] => ⟨output, []⟩
  | t :: below => if done t then popWhile done (output.push t) below else ⟨output, t :: below⟩

/-- Moves tokens from the stack to the output, from the top, up to the first that is not
    `done`. -/
def release (y : TokenYard) (done : Token → Bool) : TokenYard := popWhile done y.output y.stack

/-- Meets a closing bracket with the token on top. -/
def meet (y : TokenYard) (found : Bracket) : Except OrderFault TokenYard :=
  match y.stack.top with
  | none => .error (.missingOpening found)
  | some (.opening expected) =>
    if expected = found then .ok { y with stack := y.stack.pop.2 }
    else .error (.mismatch expected found)
  | some other => .error (Yard.strayWaiting other)

/-- Takes one token. -/
def step (y : TokenYard) : Token → Except OrderFault TokenYard
  | .number text => .ok { y with output := y.output.push (.number text) }
  | .operator op =>
    let cleared := y.release (Token.yieldsTo op)
    .ok { cleared with stack := cleared.stack.push (.operator op) }
  | .opening b => .ok { y with stack := y.stack.push (.opening b) }
  | .closing b => (y.release Token.isOperator).meet b
  | .invalid text => .error (.invalidToken text)

/-- Takes tokens from left to right; the first fault ends it. -/
def run (y : TokenYard) (ts : List Token) : Except OrderFault TokenYard := ts.foldlM step y

/-- The output once the stack is empty; a bracket or an operand on it is a fault. -/
def drain (output : Array Token) : Stack Token → Except OrderFault (List Token)
  | [] => .ok output.toList
  | .operator op :: below => drain (output.push (.operator op)) below
  | .opening b :: _ => .error (.missingClosing b)
  | .closing b :: _ =>
    .error (.internal ("closing bracket '" ++ b.closer.toString ++ "' left on operator stack"))
  | t :: _ => .error (.internal ("operand '" ++ t.text ++ "' left on operator stack"))

/-- Tokens in infix order brought into postfix order. -/
def arrange (ts : List Token) : Except OrderFault (List Token) :=
  run {} ts >>= fun y => drain y.output y.stack

/-- The tokens that are moved one at a time are a run of tokens on top. -/
theorem popWhile_eq (done : Token → Bool) (stack : Stack Token) : ∀ output : Array Token,
    popWhile done output stack =
      ⟨output ++ stack.takeWhile done, stack.dropWhile done⟩ := by
  induction stack with
  | nil => intro output; simp [popWhile]
  | cons t below ih =>
    intro output
    unfold popWhile
    by_cases ht : done t = true
    · rw [if_pos ht, ih, List.takeWhile_cons_of_pos ht, List.dropWhile_cons_of_pos ht]
      simp
    · rw [if_neg ht, List.takeWhile_cons_of_neg ht, List.dropWhile_cons_of_neg ht]
      simp

end TokenYard

/-! ## The two yards -/

namespace Yard

/-- The yard with the tokens that wait on its stack. -/
def tokens (y : Yard) : TokenYard := ⟨y.output, y.stack.map Waiting.token⟩

/-- What is released token by token is what is released in one go. -/
theorem release_tokens {done : Token → Bool} {done' : Waiting → Bool}
    (hdone : ∀ w : Waiting, done w.token = done' w) (y : Yard) :
    y.tokens.release done = (y.release done').tokens := by
  have hsame : done ∘ Waiting.token = done' := funext hdone
  unfold TokenYard.release tokens release released
  rw [TokenYard.popWhile_eq, List.takeWhile_map, List.dropWhile_map, hsame]

theorem release_isOperator_tokens (y : Yard) :
    y.tokens.release Token.isOperator = (y.release Waiting.isOperator).tokens := by
  apply release_tokens
  intro w
  cases w <;> rfl

theorem release_yieldsTo_tokens (op : Operator) (y : Yard) :
    y.tokens.release (Token.yieldsTo op) = (y.release (Waiting.yieldsTo op)).tokens := by
  apply release_tokens
  intro w
  cases w <;> rfl

theorem meet_tokens (y : Yard) (b : Bracket) :
    y.tokens.meet b = (y.meet b).map tokens := by
  obtain ⟨output, stack⟩ := y
  cases stack with
  | nil => rfl
  | cons w below =>
    cases w with
    | operator op => rfl
    | opening a =>
      show (if a = b then _ else _) = Except.map tokens (if a = b then _ else _)
      by_cases hab : a = b
      · rw [if_pos hab, if_pos hab]
        rfl
      · rw [if_neg hab, if_neg hab]
        rfl

/-- One token, with or without a fault. -/
theorem step_tokens (y : Yard) (t : Token) : y.tokens.step t = (y.step t).map tokens := by
  cases t with
  | number text => rfl
  | operator op =>
    unfold TokenYard.step
    simp only
    rw [release_yieldsTo_tokens]
    rfl
  | opening b => rfl
  | closing b =>
    unfold TokenYard.step
    simp only
    rw [release_isOperator_tokens, meet_tokens]
    rfl
  | invalid text => rfl

/-- A whole run. -/
theorem run_tokens (ts : List Token) : ∀ y : Yard, y.tokens.run ts = (y.run ts).map tokens :=
  Except.foldlM_view step_tokens ts

/-- The end, by induction on the stack: only operators and opening brackets are met. -/
theorem drain_tokens (stack : List Waiting) : ∀ output : Array Token,
    TokenYard.drain output (stack.map Waiting.token) = finish ⟨output, stack⟩ := by
  induction stack with
  | nil => intro output; simp [TokenYard.drain, finish, release, released]
  | cons w below ih =>
    intro output
    cases w with
    | opening b => simp [TokenYard.drain, finish, release, Waiting.isOperator, Waiting.token]
    | operator op =>
      have hop : Waiting.isOperator (.operator op) = true := rfl
      have hmoved : release ⟨output, .operator op :: below⟩ Waiting.isOperator =
          release ⟨output.push (.operator op), below⟩ Waiting.isOperator := by
        unfold release released
        rw [List.takeWhile_cons_of_pos hop, List.dropWhile_cons_of_pos hop]
        simp [Waiting.token]
      show TokenYard.drain (output.push (.operator op)) (below.map Waiting.token) = _
      rw [ih]
      unfold finish
      rw [hmoved]

/-- **A stack of tokens does the same.** Whatever the tokens, the yard on a stack of tokens
    has the outcome of the yard: the same postfix order or the same fault. So it never meets
    a token that should not be on its stack. -/
theorem arrange_tokens (ts : List Token) : TokenYard.arrange ts = arrange ts := by
  have hrun : TokenYard.run {} ts = (run {} ts).map tokens := run_tokens ts {}
  unfold TokenYard.arrange
  rw [hrun, arrange_eq]
  cases run {} ts with
  | error e => rfl
  | ok z => exact drain_tokens z.stack z.output

end Yard

end Calculator
