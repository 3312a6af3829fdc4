/-!
# Stacks

A last-in, first-out store: what was pushed last is on top.

Results:

* `pop_push`: a pop takes back the last push.
* `length_push`: a push adds one item.
-/

namespace Calculator

/-- Items, the topmost first. -/
abbrev Stack (α : Type) := List α

namespace Stack

variable {α : Type}

/-- Puts an item on top. -/
def push (s : Stack α) (x : α) : Stack α := x :: s

/-- The topmost item, if there is one. -/
def top (s : Stack α) : Option α := s.head?

/-- The topmost item, if there is one, and the stack without it. -/
def pop (s : Stack α) : Option α × Stack α := (s.head?, s.tail)

@[simp] theorem pop_push (s : Stack α) (x : α) : (s.push x).pop = (some x, s) := rfl

@[simp] theorem top_push (s : Stack α) (x : α) : (s.push x).top = some x := rfl

@[simp] theorem length_push (s : Stack α) (x : α) : (s.push x).length = s.length + 1 := rfl

end Stack

end Calculator
