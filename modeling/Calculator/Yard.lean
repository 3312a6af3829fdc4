import Calculator.Fault
import Calculator.Token

/-!
# From infix to postfix order

A yard holds the tokens already in postfix order and a stack of operators and
opening brackets that wait. Numerals pass straight to the output. An operator
first releases the waiting operators that are complete before it; a closing
bracket releases all operators of its group and meets the bracket that opened it.

Results:

* `arrange_eq`: the postfix order is the yard's output after all tokens, once the
  operators that still wait are released.
* `run_append`: the run over two lists one after the other is the run over the
  second from where the first ended.
-/

namespace Calculator

/-- What waits on the stack of a yard. -/
inductive Waiting where
  | operator (op : Operator)
  | opening (bracket : Bracket)
  deriving DecidableEq

namespace Waiting

/-- The token that waits. -/
def token : Waiting → Token
  | operator op => .operator op
  | opening b => .opening b

/-- Whether an operator waits. -/
def isOperator : Waiting → Bool
  | operator _ => true
  | opening _ => false

/-- Whether the waiting token is an operator that is complete before `below`. -/
def yieldsTo (below : Operator) : Waiting → Bool
  | operator above => above.yieldsTo below
  | opening _ => false

end Waiting

/-- Tokens in postfix order, and the stack of what waits, the topmost first. -/
structure Yard where
  output : Array Token := #[]
  stack : List Waiting := []
  deriving DecidableEq

namespace Yard

/-- The waiting tokens, from the top, up to the first that is not `done`. -/
def released (done : Waiting → Bool) (stack : List Waiting) : List Token :=
  (stack.takeWhile done).map Waiting.token

/-- Moves waiting tokens to the output, from the top, up to the first that is not `done`. -/
def release (y : Yard) (done : Waiting → Bool) : Yard where
  output := y.output ++ released done y.stack
  stack := y.stack.dropWhile done

/-- The complaint about a token that never waits below an opening bracket. -/
def strayWaiting (t : Token) : OrderFault :=
  .internal ("unexpected token '" ++ t.text ++ "' on operator stack")

/-- Meets a closing bracket with the topmost waiting token of a yard whose
operators are released. -/
def meet (y : Yard) (found : Bracket) : Except OrderFault Yard :=
  match y.stack with
  | [] => .error (.missingOpening found)
  | .opening expected :: rest =>
    if expected = found then .ok { y with stack := rest } else .error (.mismatch expected found)
  | .operator op :: _ => .error (strayWaiting (.operator op))

/-- Takes one token. -/
def step (y : Yard) : Token → Except OrderFault Yard
  | .number text => .ok { y with output := y.output.push (.number text) }
  | .operator op =>
    let cleared := y.release (Waiting.yieldsTo op)
    .ok { cleared with stack := .operator op :: cleared.stack }
  | .opening b => .ok { y with stack := .opening b :: y.stack }
  | .closing b => (y.release Waiting.isOperator).meet b
  | .invalid text => .error (.invalidToken text)

/-- Takes tokens from left to right; the first fault ends it. -/
def run (y : Yard) (ts : List Token) : Except OrderFault Yard :=
  ts.foldlM step y

/-- The output once the operators that wait are released; a bracket below them
was never closed. -/
def finish (y : Yard) : Except OrderFault (List Token) :=
  let cleared := y.release Waiting.isOperator
  match cleared.stack with
  | [] => .ok cleared.output.toList
  | .opening b :: _ => .error (.missingClosing b)
  | .operator op :: _ => .error (strayWaiting (.operator op))

/-- Tokens in infix order brought into postfix order. -/
def arrange (ts : List Token) : Except OrderFault (List Token) :=
  run {} ts >>= finish

theorem arrange_eq (ts : List Token) : arrange ts = (run {} ts >>= finish) := rfl

@[simp] theorem run_nil (y : Yard) : y.run [] = .ok y := rfl

theorem run_cons (y : Yard) (t : Token) (ts : List Token) :
    y.run (t :: ts) = (y.step t >>= fun next => next.run ts) := rfl

theorem run_append (y : Yard) (ts us : List Token) :
    y.run (ts ++ us) = (y.run ts >>= fun next => next.run us) := by
  simp [run]

end Yard

end Calculator
