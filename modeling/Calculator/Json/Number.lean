import Calculator.Decimal.Reader

/-!
# Number literals

The number literals of structured texts, and what they stand for. A literal with
neither point nor exponent is an integer as long as 64 bits hold it. Any other is
a double that is computed in two roundings: as many leading digits as 64 bits
hold, rounded to a double, times or through a power of ten.
-/

namespace Calculator.Json

/-- The parts of a number literal. Without a point there are no fraction digits. -/
structure Number where
  negative : Bool
  whole : List Char
  fraction : List Char := []
  /-- The sign and the digits of the exponent. -/
  exponent : Option (Bool × List Char) := none
  deriving DecidableEq

namespace Number

/-! ## Scanning -/

/-- Cuts the digits before the point off a text: a zero alone, or digits that begin
with another one. -/
def splitWhole : List Char → Option (List Char × List Char)
  | '0' :: cs => if (cs.head?.any Char.isDigit) then none else some (['0'], cs)
  | cs =>
    let digits := cs.takeWhile Char.isDigit
    if digits.isEmpty then none else some (digits, cs.dropWhile Char.isDigit)

/-- Cuts one or more digits off a text. -/
def splitDigits (cs : List Char) : Option (List Char × List Char) :=
  let digits := cs.takeWhile Char.isDigit
  if digits.isEmpty then none else some (digits, cs.dropWhile Char.isDigit)

/-- Cuts a point and its digits off a text that may have none. -/
def splitFraction : List Char → Option (List Char × List Char)
  | '.' :: cs => splitDigits cs
  | cs => some ([], cs)

/-- Cuts the sign and the digits of an exponent off a text. -/
def splitSigned : List Char → Option ((Bool × List Char) × List Char)
  | '-' :: cs => (splitDigits cs).map fun (digits, rest) => ((true, digits), rest)
  | '+' :: cs => (splitDigits cs).map fun (digits, rest) => ((false, digits), rest)
  | cs => (splitDigits cs).map fun (digits, rest) => ((false, digits), rest)

/-- Cuts an exponent off a text that may have none. -/
def splitExponent : List Char → Option (Option (Bool × List Char) × List Char)
  | mark :: cs =>
    if mark == 'e' || mark == 'E' then
      (splitSigned cs).map fun (exponent, rest) => (some exponent, rest)
    else
      some (none, mark :: cs)
  | [] => some (none, [])

/-- Cuts a literal without its sign off a text. -/
def splitMagnitude (negative : Bool) (cs : List Char) : Option (Number × List Char) := do
  let (whole, rest) ← splitWhole cs
  let (fraction, rest) ← splitFraction rest
  let (exponent, rest) ← splitExponent rest
  return ({ negative, whole, fraction, exponent }, rest)

/-- Cuts a number literal off a text. -/
def split : List Char → Option (Number × List Char)
  | '-' :: cs => splitMagnitude true cs
  | cs => splitMagnitude false cs

/-! ## Values -/

/-- What a literal stands for. -/
inductive Meaning where
  | natural (n : Nat)
  | negative (n : Nat)
  | double (x : Float)
  | tooLarge

/-- The bound of 64 bit words, `2 ^ 64`. -/
def wordBound : Nat := 0x10000000000000000

/-- Takes digits into a word as long as it holds them: the word and the number of
digits that were left. -/
def accumulate (word : Nat) : List Char → Nat × Nat
  | [] => (word, 0)
  | c :: cs =>
    let next := 10 * word + (c.toNat - '0'.toNat)
    if next < wordBound then accumulate next cs else (word, cs.length + 1)

/-- Whether all digits of an integer literal fit into a word. -/
def fits (n : Number) : Bool := Decimal.ofDigits n.whole < wordBound

/-- `f * 10 ^ exponent` in one rounding as long as the power of ten is a double;
very small values are divided in steps. No value means that it is too large. -/
def scale (f : Float) (exponent : Int) : Option Float :=
  if exponent < -308 then
    if f == 0.0 then some f else scale (f / Decimal.nearest 1 308) (exponent + 308)
  else if exponent < 0 then
    some (f / Decimal.nearest 1 (-exponent))
  else if exponent ≤ 308 then
    let scaled := f * Decimal.nearest 1 exponent
    if scaled.isInf then none else some scaled
  else if f == 0.0 then
    some f
  else
    none
termination_by (-exponent).toNat
decreasing_by omega

/-- The bound of exponents, `2 ^ 31`; larger ones count as infinite. -/
def exponentBound : Nat := 0x80000000

/-- The double of a literal without its sign: the digits before the point that a
word does not hold raise the exponent, those after it are dropped. -/
def magnitude (n : Number) : Option Float :=
  let (word, left) := accumulate 0 n.whole
  let (significand, dropped) := accumulate word n.fraction
  let shift : Int := (left : Int) - (n.fraction.length - dropped)
  match n.exponent with
  | none => scale (Float.ofNat significand) shift
  | some (negative, digits) =>
    let exponent := Decimal.ofDigits digits
    if exponent < exponentBound then
      scale (Float.ofNat significand) (if negative then shift - exponent else shift + exponent)
    else if significand = 0 || negative then
      some 0.0
    else
      none

/-- The double of a literal. -/
def double (n : Number) : Meaning :=
  match n.magnitude with
  | some x => .double (if n.negative then x.neg else x)
  | none => .tooLarge

/-- What a literal stands for. Negative integers reach down to `-2 ^ 63`, and a
negative zero is a double. -/
def meaning (n : Number) : Meaning :=
  if n.fraction.isEmpty && n.exponent.isNone && n.fits then
    let value := Decimal.ofDigits n.whole
    if !n.negative then .natural value
    else if 0 < value && 2 * value ≤ wordBound then .negative value
    else n.double
  else
    n.double

end Number

end Calculator.Json
