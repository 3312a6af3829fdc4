import Calculator.Token

/-!
# Expression trees

An expression as a tree, with operands at the leaves and operators at the inner
nodes, and its postfix order: the operands of an operator first, the left one
before the right one, then the operator.

Results:

* `gatherAll_postorder`: a postfix order, taken from left to right on a stack of
  trees, gives its tree back.
* `postorder_injective`: no two trees have the same postfix order.
* `postorder_of_gatherAll`: whatever leaves one tree is the postfix order of that
  tree.
-/

namespace Calculator

/-- An expression with operands from `α` at the leaves. -/
inductive Tree (α : Type) where
  | leaf (operand : α)
  | node (op : Operator) (left right : Tree α)
  deriving DecidableEq

namespace Tree

/-- The tree with every operand replaced. -/
def map {α β : Type} (f : α → β) : Tree α → Tree β
  | leaf a => leaf (f a)
  | node op l r => node op (l.map f) (r.map f)

/-- The operands from left to right. -/
def leaves {α : Type} : Tree α → List α
  | leaf a => [a]
  | node _ l r => l.leaves ++ r.leaves

/-- The postfix order of an expression whose operands are texts of numerals. -/
def postorder : Tree String → List Token
  | leaf text => [.number text]
  | node op l r => l.postorder ++ r.postorder ++ [.operator op]

theorem leaves_map {α β : Type} (f : α → β) (t : Tree α) : (t.map f).leaves = t.leaves.map f := by
  induction t with
  | leaf a => rfl
  | node op l r ihl ihr => rw [map, leaves, leaves, ihl, ihr, List.map_append]

/-! ## Trees from a postfix order -/

/-- Takes one token: a numeral puts a leaf on the stack, an operator joins the two
    topmost trees, the right one above the left one. -/
def gather (stack : List (Tree String)) : Token → Option (List (Tree String))
  | .number text => some (leaf text :: stack)
  | .operator op =>
    match stack with
    | r :: l :: rest => some (node op l r :: rest)
    | _ => none
  | _ => none

/-- Takes tokens from left to right. -/
def gatherAll (stack : List (Tree String)) (ts : List Token) : Option (List (Tree String)) :=
  ts.foldlM gather stack

theorem gatherAll_cons (stack : List (Tree String)) (t : Token) (ts : List Token) :
    gatherAll stack (t :: ts) = (gather stack t).bind fun next => gatherAll next ts := rfl

theorem gatherAll_append (stack : List (Tree String)) (ts us : List Token) :
    gatherAll stack (ts ++ us) = (gatherAll stack ts).bind fun next => gatherAll next us := by
  rw [gatherAll, List.foldlM_append]; rfl

/-- A postfix order puts its tree on top of whatever lay there before. -/
theorem gatherAll_postorder (t : Tree String) :
    ∀ stack, gatherAll stack t.postorder = some (t :: stack) := by
  induction t with
  | leaf text => intro stack; rfl
  | node op l r ihl ihr =>
    intro stack
    rw [postorder, gatherAll_append, gatherAll_append, ihl, Option.bind_some, ihr,
      Option.bind_some]
    rfl

theorem postorder_injective {t u : Tree String} (h : t.postorder = u.postorder) : t = u := by
  have ht := gatherAll_postorder t []
  rw [h, gatherAll_postorder u []] at ht
  exact (List.cons.inj (Option.some.inj ht)).1.symm

/-- The postfix orders of the trees on a stack, the lowest tree first. -/
def spread : List (Tree String) → List Token
  | [] => []
  | t :: rest => spread rest ++ t.postorder

theorem spread_gather {stack next : List (Tree String)} {t : Token}
    (h : gather stack t = some next) : spread next = spread stack ++ [t] := by
  cases t with
  | number text => cases h; rfl
  | operator op =>
    match stack, h with
    | r :: l :: rest, h =>
      cases h
      simp only [spread, postorder, List.append_assoc]
  | opening b => cases h
  | closing b => cases h
  | invalid text => cases h

/-- The stack holds exactly the tokens taken so far, in their order. -/
theorem spread_gatherAll (ts : List Token) :
    ∀ stack next, gatherAll stack ts = some next → spread next = spread stack ++ ts := by
  induction ts with
  | nil => intro stack next h; cases h; rw [List.append_nil]
  | cons t ts ih =>
    intro stack next h
    rw [gatherAll_cons] at h
    obtain ⟨mid, hmid, hnext⟩ := Option.bind_eq_some_iff.mp h
    rw [ih mid next hnext, spread_gather hmid, List.append_assoc, List.singleton_append]

theorem postorder_of_gatherAll {ts : List Token} {t : Tree String}
    (h : gatherAll [] ts = some [t]) : t.postorder = ts := by
  simpa [spread] using spread_gatherAll ts [] [t] h

end Tree

end Calculator
