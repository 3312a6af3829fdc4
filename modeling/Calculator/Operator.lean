/-!
# Operators

The five binary operators, their binding strength and the side to which
operators of equal strength group.

Results:

* `ofSymbol?_symbol`: a symbol reads back as its operator.
* `symbol_of_ofSymbol?`: only its own symbol reads as an operator.
-/

namespace Calculator

/-- A binary operator. -/
inductive Operator where
  | add
  | sub
  | mul
  | div
  | pow
  deriving DecidableEq

/-- The side to which operators of equal precedence group. -/
inductive Associativity where
  | left
  | right
  deriving DecidableEq

namespace Operator

/-- The character an operator is written with. -/
def symbol : Operator → Char
  | add => '+'
  | sub => '-'
  | mul => '*'
  | div => '/'
  | pow => '^'

/-- The operator written with a character. -/
def ofSymbol? : Char → Option Operator
  | '+' => some add
  | '-' => some sub
  | '*' => some mul
  | '/' => some div
  | '^' => some pow
  | _ => none

/-- The binding strength: a stronger operator takes its operands first. -/
def precedence : Operator → Nat
  | add => 1
  | sub => 1
  | mul => 2
  | div => 2
  | pow => 3

/-- Powers group to the right, all other operators to the left. -/
def associativity : Operator → Associativity
  | pow => .right
  | _ => .left

/-- Whether equal neighbours group to the left. -/
def isLeft (o : Operator) : Bool :=
  o.associativity == .left

/-- The binding strength of a character; one that is no operator has strength zero. -/
def precedenceOf (c : Char) : Nat :=
  (ofSymbol? c).elim 0 precedence

/-- `above.yieldsTo below`: with `below` newly read, the operator `above` that
waits before it is complete. It binds more strongly, or as strongly while
`below` groups to the left. -/
def yieldsTo (above below : Operator) : Bool :=
  below.precedence < above.precedence || (above.precedence == below.precedence && below.isLeft)

@[simp] theorem ofSymbol?_symbol (o : Operator) : ofSymbol? o.symbol = some o := by
  cases o <;> rfl

theorem symbol_of_ofSymbol? {c : Char} {o : Operator} (h : ofSymbol? c = some o) :
    o.symbol = c := by
  unfold ofSymbol? at h
  split at h <;> cases h <;> rfl

theorem precedence_pos (o : Operator) : 0 < o.precedence := by
  cases o <;> decide

theorem isLeft_eq_false_iff {o : Operator} : o.isLeft = false ↔ o = pow := by
  cases o <;> decide

end Operator

end Calculator
