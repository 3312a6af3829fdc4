import Calculator.Calculation
import Calculator.Report

/-!
# Structured output of a calculation

One value per expression: the expression and its tokens, and either its postfix
order and value or the report of its fault. Members stand in alphabetical order.
-/

namespace Calculator.Rendering

/-- A token as a structured value. -/
def ofToken (t : Token) : Json :=
  .object [("kind", .text t.kind.tag), ("text", .text t.text)]

/-- Tokens as a structured value. -/
def ofTokens (ts : List Token) : Json := .array (ts.map ofToken)

/-- The outcome of the calculation of `source` as a structured value. The tokens of
a faulty expression are read for the output alone. -/
def toJson (source : String) : Except Fault Outcome → Json
  | .ok outcome =>
    .object
      [("expression", .text source), ("postfix", .text outcome.postfixText),
       ("tokens", ofTokens outcome.tokens), ("value", .ofFloat outcome.value)]
  | .error fault =>
    .object
      [("error", (Report.ofFault fault).toMember), ("expression", .text source),
       ("tokens", ofTokens (Token.tokenize source))]

/-- The outcome of a calculation in one line of structured text. -/
def line (source : String) (outcome : Except Fault Outcome) : String :=
  (toJson source outcome).compact

end Calculator.Rendering
