import Calculator.Bracket
import Calculator.Operator

/-!
# Faults

Why a calculation has no result. Each fault is a cause; its wording stands in
one `message` function, and its name and phase are what a report shows beside it.
-/

namespace Calculator

/-- Why tokens cannot be put into postfix order. -/
inductive OrderFault where
  /-- A closing bracket with no bracket open. -/
  | missingOpening (bracket : Bracket)
  /-- A bracket that is still open at the end. -/
  | missingClosing (bracket : Bracket)
  /-- A closing bracket of the other family than the innermost open one. -/
  | mismatch (expected found : Bracket)
  /-- A token that could not be read. -/
  | invalidToken (text : String)
  /-- A state that no token list leads to. -/
  | internal (text : String)
  deriving DecidableEq

/-- Why a postfix expression has no value. -/
inductive ValueFault where
  /-- A numeral that is no number, or a token that is no operand and no operator. -/
  | invalidToken (text : String)
  /-- An operator with fewer than two operands before it. -/
  | tooFewOperands (op : Operator)
  /-- A quotient whose divisor is zero of either sign. -/
  | divisionByZero
  /-- An end with more or fewer operands than one. -/
  | remainingOperands (count : Nat)
  /-- An operand beyond the number that may wait at a time. -/
  | stackOverflow (limit : Nat)
  deriving DecidableEq

/-- Why a calculation has no result. -/
inductive Fault where
  /-- A source with more characters than the limit. -/
  | inputTooLong (length limit : Nat)
  | order (fault : OrderFault)
  | value (fault : ValueFault)
  | internal (text : String)
  deriving DecidableEq

/-- The wording of an internal fault. -/
def internalMessage (text : String) : String := "Internal error: " ++ text

/-- A character between single quotes. -/
def quotedCharacter (c : Char) : String := "'" ++ c.toString ++ "'"

namespace OrderFault

/-- The wording of the fault. -/
def message : OrderFault → String
  | missingOpening b => "Mismatched parentheses: Missing " ++ quotedCharacter b.opener
  | missingClosing b => "Mismatched parentheses: Missing " ++ quotedCharacter b.closer
  | mismatch expected found =>
    "Mismatched parentheses: Expected " ++ quotedCharacter expected.closer ++ ", found " ++
      quotedCharacter found.closer
  | invalidToken text => "Invalid token encountered: " ++ text
  | internal text => internalMessage text

/-- The name of the fault. -/
def title : OrderFault → String
  | missingOpening _ => "MissingOpen"
  | missingClosing _ => "MissingClose"
  | mismatch _ _ => "Mismatch"
  | invalidToken _ => "InvalidToken"
  | internal _ => "Internal"

/-- The fault with the bracket families in it exchanged. -/
def swapBrackets : OrderFault → OrderFault
  | missingOpening b => missingOpening b.swap
  | missingClosing b => missingClosing b.swap
  | mismatch expected found => mismatch expected.swap found.swap
  | fault => fault

end OrderFault

namespace ValueFault

/-- The wording of the fault. -/
def message : ValueFault → String
  | invalidToken text => "Invalid token in expression: " ++ text
  | tooFewOperands op => "Too few operands for operator: " ++ op.symbol.toString
  | divisionByZero => "Division by zero"
  | remainingOperands count =>
    "Invalid expression: " ++ count.repr ++ " elements remain on the stack, expected 1"
  | stackOverflow limit => "Operand stack overflow: more than " ++ limit.repr ++ " operands"

/-- The name of the fault. -/
def title : ValueFault → String
  | invalidToken _ => "InvalidToken"
  | tooFewOperands _ => "TooFewOperands"
  | divisionByZero => "DivisionByZero"
  | remainingOperands _ => "RemainingOperands"
  | stackOverflow _ => "StackOverflow"

end ValueFault

namespace Fault

/-- The wording of the fault. -/
def message : Fault → String
  | inputTooLong length limit =>
    "Input too long: " ++ length.repr ++ " characters, limit is " ++ limit.repr
  | order fault => fault.message
  | value fault => fault.message
  | internal text => internalMessage text

/-- The name of the fault. -/
def title : Fault → String
  | inputTooLong _ _ => "InputTooLong"
  | order fault => fault.title
  | value fault => fault.title
  | internal _ => "Internal"

/-- The part of a calculation that found the fault. -/
def phase : Fault → String
  | inputTooLong _ _ => "input"
  | order _ => "translator"
  | value _ => "evaluator"
  | internal _ => "internal"

/-- The fault of a calculation whose tokens cannot be ordered; an internal fault
is not charged to the expression. -/
def ofOrder : OrderFault → Fault
  | .internal text => internal text
  | fault => order fault

/-- The fault with the bracket families in it exchanged. -/
def swapBrackets : Fault → Fault
  | order fault => order fault.swapBrackets
  | fault => fault

end Fault

end Calculator
