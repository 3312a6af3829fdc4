import Calculator.Decimal.Binary

/-!
# Shortest decimals

The decimal with the fewest digits that reads back as a given double; of several
with that many digits, the nearest one. `Tie` says which of two equally near
decimals is taken.

The search runs over the decimal grids of one, two, … digits, the step of a grid
being a power of ten. On each grid only the two neighbours of the value can be
nearest; the first grid with a neighbour in the double's interval decides. All
comparisons are between natural numbers: value and interval are counted in
quarter steps of the double, and both these and the grid step are multiplied out.
-/

namespace Calculator.Decimal

/-- Which of two equally near decimals is taken. -/
inductive Tie where
  | up
  | toEven
  deriving DecidableEq

/-- A decimal `0.d₁d₂… * 10 ^ (exponent + 1)`: its digits, and the power of ten of
the first one. -/
structure Digits where
  digits : List Char
  exponent : Int
  deriving DecidableEq

/-! ## Grids -/

/-- A decimal grid as seen from a double: `count * quarter` and `point * step`
are compared. -/
structure Grid where
  quarter : Nat
  step : Nat
  deriving DecidableEq

/-- The grid of step `10 ^ power`. -/
def Binary.grid (b : Binary) (power : Int) : Grid where
  quarter := Nat.pow 2 (b.exponent - 2).toNat * Nat.pow 10 (-power).toNat
  step := Nat.pow 2 (2 - b.exponent).toNat * Nat.pow 10 power.toNat

/-- Whether the grid's point number `point` reads back as the double. -/
def Binary.holds (b : Binary) (g : Grid) (point : Nat) : Bool :=
  if b.closed then
    b.low * g.quarter ≤ point * g.step && point * g.step ≤ b.high * g.quarter
  else
    b.low * g.quarter < point * g.step && point * g.step < b.high * g.quarter

/-- The last grid point not above the value. -/
def Binary.below (b : Binary) (g : Grid) : Nat := b.centre * g.quarter / g.step

/-- The nearest grid point that reads back as the double, of the value's two
neighbours on the grid. -/
def Binary.nearest? (b : Binary) (tie : Tie) (g : Grid) : Option Nat :=
  let point := b.below g
  match b.holds g point, b.holds g (point + 1) with
  | true, true =>
    let short := b.centre * g.quarter - point * g.step
    let long := (point + 1) * g.step - b.centre * g.quarter
    if short < long then some point
    else if long < short then some (point + 1)
    else
      match tie with
      | .up => some (point + 1)
      | .toEven => some (if point % 2 = 0 then point else point + 1)
  | true, false => some point
  | false, true => some (point + 1)
  | false, false => none

/-! ## The search -/

/-- Whether the value is at least `10 ^ power`. -/
def Binary.reaches (b : Binary) (power : Int) : Bool :=
  (b.grid power).step ≤ b.centre * (b.grid power).quarter

/-- The power of ten of the value's first digit. The base two logarithm gives it
up to one. -/
def Binary.leading (b : Binary) : Int :=
  let guess := ((b.significand.log2 : Int) + b.exponent) * 30103 / 100000
  if b.reaches (guess + 1) then guess + 1
  else if b.reaches guess then guess
  else guess - 1

/-- The grids of one to seventeen digits, coarsest first. -/
def Binary.powers (b : Binary) : List Int :=
  (List.range 17).map fun (n : Nat) => b.leading - n

/-- The digits of `point * 10 ^ power`, without zeros at the end. -/
def Digits.ofPoint (point : Nat) (power : Int) : Digits :=
  let all := Nat.toDigits 10 point
  ⟨(all.reverse.dropWhile (· == '0')).reverse, power + all.length - 1⟩

/-- The shortest decimal of a magnitude. On the grid of seventeen digits one of the
neighbours always reads back. -/
def Binary.shortest (b : Binary) (tie : Tie) : Digits :=
  let hit := b.powers.findSome? fun power =>
    (b.nearest? tie (b.grid power)).map fun point => Digits.ofPoint point power
  hit.getD ⟨['0'], 0⟩

end Calculator.Decimal
