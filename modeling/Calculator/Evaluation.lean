import Calculator.Decimal.Reader
import Calculator.Fault
import Calculator.Token

/-!
# The value of a postfix expression

Tokens are taken from left to right: a numeral puts its number on the operand
stack, an operator replaces the two topmost operands by its result. The value is
the one operand that is left.

Results:

* `evaluate_eq_run`: the evaluation is the run from the empty stack.
* `run_append`: the run over two lists one after the other is the run over the
  second from where the first ended.
-/

namespace Calculator

/-- The value of an operator. Only division fails, by a divisor that is zero of
either sign. -/
def Operator.apply : Operator → Float → Float → Except ValueFault Float
  | add, a, b => .ok (a + b)
  | sub, a, b => .ok (a - b)
  | mul, a, b => .ok (a * b)
  | div, a, b => if b == 0.0 then .error .divisionByZero else .ok (a / b)
  | pow, a, b => .ok (Float.pow a b)

namespace Evaluation

/-- The operands that wait for an operator, the topmost first. -/
abbrev Operands := List Float

/-- Puts an operand on the stack unless it is full. -/
def push (limit : Option Nat) (stack : Operands) (x : Float) : Except ValueFault Operands :=
  match limit with
  | some most =>
    if most ≤ stack.length then .error (.stackOverflow most) else .ok (x :: stack)
  | none => .ok (x :: stack)

/-- Takes one token. The right operand of an operator lies above the left one. -/
def step (limit : Option Nat) (stack : Operands) : Token → Except ValueFault Operands
  | .number text =>
    match Decimal.read? text with
    | some x => push limit stack x
    | none => .error (.invalidToken text)
  | .operator op =>
    match stack with
    | b :: a :: rest => (op.apply a b).map (· :: rest)
    | _ => .error (.tooFewOperands op)
  | t => .error (.invalidToken t.text)

/-- Takes tokens from left to right; the first fault ends it. -/
def run (limit : Option Nat) (stack : Operands) (ts : List Token) : Except ValueFault Operands :=
  ts.foldlM (step limit) stack

/-- The one operand that is left. -/
def result : Operands → Except ValueFault Float
  | [x] => .ok x
  | stack => .error (.remainingOperands stack.length)

/-- The value of a postfix expression, with at most `limit` operands waiting at a
time if there is a limit. -/
def evaluate (limit : Option Nat) (ts : List Token) : Except ValueFault Float :=
  run limit [] ts >>= result

theorem evaluate_eq_run (limit : Option Nat) (ts : List Token) :
    evaluate limit ts = (run limit [] ts >>= result) := rfl

@[simp] theorem run_nil (limit : Option Nat) (stack : Operands) : run limit stack [] = .ok stack :=
  rfl

theorem run_cons (limit : Option Nat) (stack : Operands) (t : Token) (ts : List Token) :
    run limit stack (t :: ts) = (step limit stack t >>= fun next => run limit next ts) := rfl

theorem run_append (limit : Option Nat) (stack : Operands) (ts us : List Token) :
    run limit stack (ts ++ us) = (run limit stack ts >>= fun next => run limit next us) := by
  simp [run]

end Evaluation

end Calculator
