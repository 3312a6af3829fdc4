/-!
# Doubles in exact arithmetic

A double as sign, significand and power of two, and the interval of real
numbers that are nearer to it than to any other double.
-/

namespace Calculator.Decimal

/-- A finite double other than zero, without its sign: `significand * 2 ^ exponent`.
`narrow` says that the next smaller double lies half a step below. -/
structure Binary where
  significand : Nat
  exponent : Int
  narrow : Bool
  deriving DecidableEq

/-- What a double stands for. -/
inductive Decoded where
  | undefined
  | infinite (negative : Bool)
  | zero (negative : Bool)
  | finite (negative : Bool) (magnitude : Binary)
  deriving DecidableEq

/-- Two to the power of the number of fraction bits, 52. -/
def fractionBound : Nat := 0x10000000000000

/-- The magnitude that a biased exponent and a fraction field encode. -/
def Binary.ofFields (biased fraction : Nat) : Binary :=
  if biased = 0 then
    ⟨fraction, -1074, false⟩
  else
    ⟨fractionBound + fraction, (biased : Int) - 1075, fraction = 0 && 1 < biased⟩

/-- Takes a double apart: one sign bit, eleven exponent bits, 52 fraction bits. -/
def decode (x : Float) : Decoded :=
  let bits := x.toBits.toNat
  let negative := bits / fractionBound / 2048 % 2 = 1
  let biased := bits / fractionBound % 2048
  let fraction := bits % fractionBound
  if biased = 2047 then
    if fraction = 0 then .infinite negative else .undefined
  else if biased = 0 && fraction = 0 then
    .zero negative
  else
    .finite negative (.ofFields biased fraction)

namespace Binary

/-- Quarter steps from zero to the value. -/
def centre (b : Binary) : Nat := 4 * b.significand

/-- Quarter steps from zero to the midpoint below: half a step down, or a quarter. -/
def low (b : Binary) : Nat := b.centre - if b.narrow then 1 else 2

/-- Quarter steps from zero to the midpoint above. -/
def high (b : Binary) : Nat := b.centre + 2

/-- The midpoints themselves read as this double exactly when its significand is even. -/
def closed (b : Binary) : Bool := b.significand % 2 = 0

end Binary

end Calculator.Decimal
