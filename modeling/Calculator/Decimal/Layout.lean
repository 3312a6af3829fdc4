import Calculator.Decimal.Shortest

/-!
# Writing doubles

A double is written with its shortest digits, positionally or with an exponent.
A `Layout` holds the choices of one output format.
-/

namespace Calculator.Decimal

/-- The choices of a format for doubles. -/
structure Layout where
  /-- Which powers of ten of the first digit are written positionally. -/
  positional : Int → Bool
  /-- Whether a positional whole number ends in `.0`. -/
  pointZero : Bool
  /-- Whether an exponent that is not negative has a plus sign. -/
  plusSign : Bool
  /-- Which of two equally near decimals is written. -/
  tie : Tie
  /-- The text of the undefined number. -/
  undefinedText : String
  /-- The text of the positive infinity. -/
  infinityText : String
  /-- The text of the negative infinity. -/
  negativeInfinityText : String

namespace Layout

/-- `count` zeros. -/
def zeros (count : Int) : List Char := List.replicate count.toNat '0'

/-- Digits with a point at their place. -/
def writePositional (l : Layout) (d : Digits) : List Char :=
  if d.exponent < 0 then
    '0' :: '.' :: zeros (-d.exponent - 1) ++ d.digits
  else
    let places := d.exponent.toNat + 1
    if d.digits.length ≤ places then
      d.digits ++ zeros (places - d.digits.length) ++ if l.pointZero then ['.', '0'] else []
    else
      d.digits.take places ++ '.' :: d.digits.drop places

/-- One digit, a point and the other digits if there are any, and the exponent. -/
def writeExponent (l : Layout) (d : Digits) : List Char :=
  let fraction := d.digits.drop 1
  let sign := if d.exponent < 0 then ['-'] else if l.plusSign then ['+'] else []
  d.digits.take 1 ++ (if fraction.isEmpty then [] else '.' :: fraction) ++
    'e' :: sign ++ Nat.toDigits 10 d.exponent.natAbs

/-- The text of a decimal without its sign. -/
def writeDigits (l : Layout) (d : Digits) : List Char :=
  if l.positional d.exponent then l.writePositional d else l.writeExponent d

/-- A minus sign in front of a negative number. -/
def signed (negative : Bool) (text : List Char) : String :=
  String.ofList (if negative then '-' :: text else text)

/-- The text of a double. Zero is written positionally and keeps its sign. -/
def write (l : Layout) (x : Float) : String :=
  match decode x with
  | .undefined => l.undefinedText
  | .infinite false => l.infinityText
  | .infinite true => l.negativeInfinityText
  | .zero negative => signed negative (l.writePositional ⟨['0'], 0⟩)
  | .finite negative b => signed negative (l.writeDigits (b.shortest l.tie))

end Layout

end Calculator.Decimal
