/-!
# Reading decimal numerals

The doubles that texts stand for. A text is an optional sign, then a decimal
numeral with an optional exponent, or the name of an infinity or of the
undefined number in letters of any case. The double is the one nearest to the
written value, the even one of two; too large a value is an infinity.

Results:

* `magnitude?_isSome`: digits with at most one point among them are read,
  provided there is a digit.
-/

namespace Calculator.Decimal

/-! ## Digits -/

/-- The value of a digit string. -/
def ofDigits (cs : List Char) : Nat :=
  cs.foldl (fun n c => 10 * n + (c.toNat - '0'.toNat)) 0

/-- The double nearest to `mantissa * 10 ^ exponent`. -/
def nearest (mantissa : Nat) (exponent : Int) : Float :=
  Float.ofScientific mantissa (exponent < 0) exponent.natAbs

/-! ## The parts of a numeral -/

/-- Cuts the point and the digits after it off a text; no digits without a point. -/
def splitFraction : List Char → List Char × List Char
  | '.' :: cs => (cs.takeWhile Char.isDigit, cs.dropWhile Char.isDigit)
  | cs => ([], cs)

/-- Reads digits as an exponent: one or more digits and nothing else. -/
def exponentDigits? (cs : List Char) : Option Nat :=
  if !cs.isEmpty && cs.all Char.isDigit then some (ofDigits cs) else none

/-- Reads the end of a numeral as its exponent: nothing, or a mark, an optional
sign and digits. -/
def exponent? : List Char → Option Int
  | [] => some 0
  | mark :: cs =>
    if mark == 'e' || mark == 'E' then
      match cs with
      | '+' :: ds => (exponentDigits? ds).map Int.ofNat
      | '-' :: ds => (exponentDigits? ds).map fun n => -Int.ofNat n
      | ds => (exponentDigits? ds).map Int.ofNat
    else
      none

/-- Reads a decimal numeral without a sign. -/
def magnitude? (cs : List Char) : Option Float :=
  let whole := cs.takeWhile Char.isDigit
  let (fraction, rest) := splitFraction (cs.dropWhile Char.isDigit)
  if whole.isEmpty && fraction.isEmpty then
    none
  else
    (exponent? rest).map fun e => nearest (ofDigits (whole ++ fraction)) (e - fraction.length)

/-! ## Names -/

/-- The positive infinity. -/
def infinity : Float := Float.ofBits 0x7FF0000000000000

/-- The undefined number. -/
def undefined : Float := Float.ofBits 0x7FF8000000000000

/-- Reads the name of a number that has no digits; the case of letters does not matter. -/
def name? (cs : List Char) : Option Float :=
  let word := String.ofList (cs.map Char.toLower)
  if word == "inf" || word == "infinity" then some infinity
  else if word == "nan" then some undefined
  else none

/-! ## Numerals -/

/-- Reads a numeral without a sign. -/
def unsigned? (cs : List Char) : Option Float :=
  (magnitude? cs).or (name? cs)

/-- Reads a numeral. -/
def read? (text : String) : Option Float :=
  match text.toList with
  | '-' :: cs => (unsigned? cs).map Float.neg
  | '+' :: cs => unsigned? cs
  | cs => unsigned? cs

theorem exponent?_nil : exponent? [] = some 0 := rfl

theorem magnitude?_isSome {cs : List Char}
    (digit : ((cs.takeWhile Char.isDigit).isEmpty &&
      (splitFraction (cs.dropWhile Char.isDigit)).1.isEmpty) = false)
    (whole : (splitFraction (cs.dropWhile Char.isDigit)).2 = []) :
    (magnitude? cs).isSome = true := by
  simp [magnitude?, digit, whole, exponent?_nil]

end Calculator.Decimal
