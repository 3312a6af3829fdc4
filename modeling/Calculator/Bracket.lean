/-!
# Brackets

The two bracket families of an expression. A bracket closes only a bracket of
its own family.
-/

namespace Calculator

/-- A bracket family. -/
inductive Bracket where
  | round
  | square
  deriving DecidableEq

namespace Bracket

/-- The character that opens a group of this family. -/
def opener : Bracket → Char
  | round => '('
  | square => '['

/-- The character that closes a group of this family. -/
def closer : Bracket → Char
  | round => ')'
  | square => ']'

/-- The other family. -/
def swap : Bracket → Bracket
  | round => square
  | square => round

@[simp] theorem swap_swap (b : Bracket) : b.swap.swap = b := by
  cases b <;> rfl

theorem swap_inj {a b : Bracket} : a.swap = b.swap ↔ a = b := by
  cases a <;> cases b <;> decide

end Bracket

end Calculator
