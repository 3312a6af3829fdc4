import Calculator.Bracket
import Calculator.Operator

/-!
# Tokens

The words of an expression. A numeral keeps the text it was written with; what
cannot be read is kept as an `invalid` token that carries its complaint, so that
reading an expression into tokens never fails.
-/

namespace Calculator

/-- A word of an expression. -/
inductive Token where
  | number (text : String)
  | operator (op : Operator)
  | opening (bracket : Bracket)
  | closing (bracket : Bracket)
  | invalid (complaint : String)
  deriving DecidableEq

namespace Token

/-- The class of a token. -/
inductive Kind where
  | number
  | operator
  | opening (bracket : Bracket)
  | closing (bracket : Bracket)
  | invalid
  deriving DecidableEq

/-- The class of a token. -/
def kind : Token → Kind
  | number _ => .number
  | operator _ => .operator
  | opening b => .opening b
  | closing b => .closing b
  | invalid _ => .invalid

/-- The name of a class in structured output. -/
def Kind.tag : Kind → String
  | number => "number"
  | operator => "operator"
  | opening .round => "left_paren_round"
  | opening .square => "left_paren_square"
  | closing .round => "right_paren_round"
  | closing .square => "right_paren_square"
  | invalid => "invalid"

/-- The name of a class in the journal. -/
def Kind.title : Kind → String
  | number => "Number"
  | operator => "Operator"
  | opening .round => "LeftParenRound"
  | opening .square => "LeftParenSquare"
  | closing .round => "RightParenRound"
  | closing .square => "RightParenSquare"
  | invalid => "Invalid"

/-- The text of a token: a numeral as written, the symbol of an operator or
bracket, the complaint of an invalid token. -/
def text : Token → String
  | number s => s
  | operator o => o.symbol.toString
  | opening b => b.opener.toString
  | closing b => b.closer.toString
  | invalid s => s

/-- The texts of tokens, divided by one space. -/
def joined (ts : List Token) : String :=
  " ".intercalate (ts.map text)

/-- The texts of tokens with nothing between them. -/
def compact (ts : List Token) : String :=
  String.join (ts.map text)

/-- Whether an operand has to follow: after an operator or an opening bracket. -/
def wantsOperand : Token → Bool
  | operator _ => true
  | opening _ => true
  | _ => false

/-- The token with its bracket family exchanged, if it is a bracket. -/
def swapBracket : Token → Token
  | opening b => opening b.swap
  | closing b => closing b.swap
  | t => t

end Token

end Calculator
