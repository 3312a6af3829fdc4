import Calculator.Decimal.Layout
import Calculator.Evaluation
import Calculator.Token.Scanner
import Calculator.Yard

/-!
# Calculations

From the text of an expression to its value: the text is read into tokens, the
tokens are brought into postfix order, and the postfix expression is evaluated.
The first part that finds a fault ends the calculation.
-/

namespace Calculator

/-- How much a calculation may take on. -/
structure Limits where
  /-- The most characters a source may have. -/
  inputLength : Nat := 4096
  /-- The most operands that may wait at a time. -/
  operands : Nat := 1024
  deriving DecidableEq

/-- The settings of a calculation: its limits, and what the journal shows of it. -/
structure Options where
  limits : Limits := {}
  showTokens : Bool := false
  showPostfix : Bool := false
  deriving DecidableEq

/-- An expression as tokens, in infix and in postfix order. -/
structure Arranged where
  tokens : List Token
  ordered : List Token
  deriving DecidableEq

/-- An expression with its value. -/
structure Outcome extends Arranged where
  value : Float

/-- The postfix order in one line. -/
def Arranged.postfixText (a : Arranged) : String := Token.joined a.ordered

namespace Calculation

/-- Values are always positional, whole numbers have no point, and a tie goes up. -/
def amount : Decimal.Layout where
  positional _ := true
  pointZero := false
  plusSign := false
  tie := .up
  undefinedText := "NaN"
  infinityText := "inf"
  negativeInfinityText := "-inf"

/-- Refuses a source with more characters than the limit. -/
def checkLength (limits : Limits) (source : String) : Except Fault Unit :=
  if limits.inputLength < source.length then
    .error (.inputTooLong source.length limits.inputLength)
  else
    .ok ()

/-- Tokens in postfix order. -/
def order (ts : List Token) : Except Fault (List Token) :=
  (Yard.arrange ts).mapError Fault.ofOrder

/-- Reads an expression into tokens and orders them. -/
def arrange (options : Options) (source : String) : Except Fault Arranged := do
  checkLength options.limits source
  let tokens := Token.tokenize source
  let ordered ← order tokens
  return { tokens, ordered }

/-- The value of a postfix expression within the limits. -/
def evaluate (options : Options) (ts : List Token) : Except Fault Float :=
  (Evaluation.evaluate (some options.limits.operands) ts).mapError Fault.value

/-- The calculation of an expression. -/
def run (options : Options) (source : String) : Except Fault Outcome := do
  let arranged ← arrange options source
  let value ← evaluate options arranged.ordered
  return { arranged with value }

end Calculation

end Calculator
