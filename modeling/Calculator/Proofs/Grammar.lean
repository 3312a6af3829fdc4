import Calculator.Proofs.Tree

/-!
# The infix grammar

Which token lists are well-formed expressions, and the trees they stand for. There
are four categories, from the loosest to the tightest:

    expression ::= term   | expression (+|-) term
    term       ::= factor | term (*|/) factor
    factor     ::= atom   | atom ^ factor
    atom       ::= number | ( expression ) | [ expression ]

Sums and products group to the left, powers to the right, and brackets leave no
trace in the tree.

Results:

* `Derives.numerals_eq`: the numerals of an expression are the leaves of its tree.
* `Derives.alternate_append`: operands and operators alternate in an expression.
* `Tree.derives_bracketed`: every tree has a spelling, with brackets around every
  operation.
-/

namespace Calculator

/-- The categories of the infix grammar. -/
inductive Category where
  | expression
  | term
  | factor
  | atom
  deriving DecidableEq

/-- The least precedence of an operator that stands outside all brackets in a list of
    the category. -/
def Category.strength : Category → Nat
  | .expression => 1
  | .term => 2
  | .factor => 3
  | .atom => 4

/-- `Derives c w t`: the tokens `w` are of category `c` by a derivation whose tree,
    with the brackets forgotten, is `t`. -/
inductive Derives : Category → List Token → Tree String → Prop
  | expression {w : List Token} {t : Tree String} :
      Derives .term w t → Derives .expression w t
  | sum {op : Operator} {u w : List Token} {l r : Tree String} (hop : op = .add ∨ op = .sub) :
      Derives .expression u l → Derives .term w r →
      Derives .expression (u ++ .operator op :: w) (.node op l r)
  | term {w : List Token} {t : Tree String} :
      Derives .factor w t → Derives .term w t
  | product {op : Operator} {u w : List Token} {l r : Tree String} (hop : op = .mul ∨ op = .div) :
      Derives .term u l → Derives .factor w r →
      Derives .term (u ++ .operator op :: w) (.node op l r)
  | factor {w : List Token} {t : Tree String} :
      Derives .atom w t → Derives .factor w t
  | power {u w : List Token} {l r : Tree String} :
      Derives .atom u l → Derives .factor w r →
      Derives .factor (u ++ .operator .pow :: w) (.node .pow l r)
  | number (text : String) : Derives .atom [.number text] (.leaf text)
  | bracketed (b : Bracket) {w : List Token} {t : Tree String} :
      Derives .expression w t → Derives .atom (.opening b :: (w ++ [.closing b])) t

/-- Tokens of any category are an expression. -/
theorem Derives.toExpression {c : Category} {w : List Token} {t : Tree String}
    (h : Derives c w t) : Derives .expression w t := by
  cases c with
  | expression => exact h
  | term => exact .expression h
  | factor => exact .expression (.term h)
  | atom => exact .expression (.term (.factor h))

/-! ## Numerals -/

namespace Token

/-- The text of a numeral. -/
def numeral? : Token → Option String
  | number text => some text
  | _ => none

/-- The numerals among tokens, in their order. -/
def numerals (ts : List Token) : List String := ts.filterMap numeral?

theorem numerals_append (ts us : List Token) : numerals (ts ++ us) = numerals ts ++ numerals us :=
  List.filterMap_append

@[simp] theorem numerals_nil : numerals [] = [] := rfl

@[simp] theorem numerals_number (text : String) (ts : List Token) :
    numerals (.number text :: ts) = text :: numerals ts := rfl

@[simp] theorem numerals_operator (op : Operator) (ts : List Token) :
    numerals (.operator op :: ts) = numerals ts := rfl

@[simp] theorem numerals_opening (b : Bracket) (ts : List Token) :
    numerals (.opening b :: ts) = numerals ts := rfl

@[simp] theorem numerals_closing (b : Bracket) (ts : List Token) :
    numerals (.closing b :: ts) = numerals ts := rfl

end Token

theorem Derives.numerals_eq {c : Category} {w : List Token} {t : Tree String}
    (h : Derives c w t) : Token.numerals w = t.leaves := by
  induction h with
  | expression _ ih | term _ ih | factor _ ih => exact ih
  | sum _ _ _ ihl ihr | product _ _ _ ihl ihr | power _ _ ihl ihr =>
    rw [Token.numerals_append, Token.numerals_operator, ihl, ihr, Tree.leaves]
  | number text => rfl
  | bracketed b _ ih =>
    rw [Token.numerals_opening, Token.numerals_append, Token.numerals_closing, ih,
      Token.numerals_nil, List.append_nil]

/-! ## Alternation -/

/-- Whether operands and operators alternate; `due` says whether an operand has to
    come next. Where it has, an opening bracket may stand before it; where an operator
    has to come, a closing bracket may stand before it. So no pair of brackets is empty,
    and the end comes where no operand is due. -/
def Token.alternate : (due : Bool) → List Token → Bool
  | true, .number _ :: ts => alternate false ts
  | true, .opening _ :: ts => alternate true ts
  | false, .operator _ :: ts => alternate true ts
  | false, .closing _ :: ts => alternate false ts
  | false, [] => true
  | _, _ => false

/-- A derived list takes the place of one operand. -/
theorem Derives.alternate_append {c : Category} {w : List Token} {t : Tree String}
    (h : Derives c w t) :
    ∀ rest, Token.alternate true (w ++ rest) = Token.alternate false rest := by
  induction h with
  | expression _ ih | term _ ih | factor _ ih => exact ih
  | sum _ _ _ ihl ihr | product _ _ _ ihl ihr | power _ _ ihl ihr =>
    intro rest
    rw [List.append_assoc, ihl, List.cons_append, Token.alternate, ihr]
  | number text => intro rest; rfl
  | bracketed b _ ih =>
    intro rest
    rw [List.cons_append, List.append_assoc, Token.alternate, ih, List.singleton_append,
      Token.alternate]

theorem Derives.alternate {c : Category} {w : List Token} {t : Tree String}
    (h : Derives c w t) : Token.alternate true w = true := by
  have hw := h.alternate_append []
  rwa [List.append_nil] at hw

/-! ## A spelling of every tree -/

/-- An operator between two atoms makes an expression. -/
theorem Derives.ofAtoms {u w : List Token} {l r : Tree String} (op : Operator)
    (hl : Derives .atom u l) (hr : Derives .atom w r) :
    Derives .expression (u ++ .operator op :: w) (.node op l r) := by
  cases op with
  | add => exact .sum (.inl rfl) hl.toExpression (.term (.factor hr))
  | sub => exact .sum (.inr rfl) hl.toExpression (.term (.factor hr))
  | mul => exact .expression (.product (.inl rfl) (.term (.factor hl)) (.factor hr))
  | div => exact .expression (.product (.inr rfl) (.term (.factor hl)) (.factor hr))
  | pow => exact .expression (.term (.power hl (.factor hr)))

namespace Tree

/-- The spelling of a tree with round brackets around every operation. -/
def bracketed : Tree String → List Token
  | leaf text => [.number text]
  | node op l r => .opening .round :: (l.bracketed ++ .operator op :: r.bracketed ++ [.closing .round])

theorem derives_bracketed (t : Tree String) : Derives .atom t.bracketed t := by
  induction t with
  | leaf text => exact .number text
  | node op l r ihl ihr => exact .bracketed .round (.ofAtoms op ihl ihr)

end Tree

end Calculator
