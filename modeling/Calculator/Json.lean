import Calculator.Decimal.Layout

/-!
# Structured values and their text

The values of the structured output and their compact text: no blanks, members
in the order in which they stand, and escapes only where a text needs them. The
text of a value is always one line.
-/

namespace Calculator

/-- A structured value. A number is kept as the literal it is written with. -/
inductive Json where
  | null
  | number (literal : String)
  | text (content : String)
  | array (items : List Json)
  | object (members : List (String × Json))

namespace Json

/-- Doubles are positional from `0.00001` up to sixteen digits, whole numbers end
in `.0`, exponents have a sign, a tie goes to the even digit, and what is no
finite number is `null`. -/
def amount : Decimal.Layout where
  positional e := -5 ≤ e && e < 16
  pointZero := true
  plusSign := true
  tie := .toEven
  undefinedText := "null"
  infinityText := "null"
  negativeInfinityText := "null"

/-- The value of a double. -/
def ofFloat (x : Float) : Json := number (amount.write x)

/-! ## Texts -/

/-- The hexadecimal digit of a number below sixteen. -/
def hexDigit (n : Nat) : Char := Nat.digitChar n

/-- How a character stands inside a quoted text: quotes, backslashes and control
characters are escaped. -/
def escape (c : Char) : List Char :=
  match c with
  | '"' => ['\\', '"']
  | '\\' => ['\\', '\\']
  | '\x08' => ['\\', 'b']
  | '\t' => ['\\', 't']
  | '\n' => ['\\', 'n']
  | '\x0c' => ['\\', 'f']
  | '\r' => ['\\', 'r']
  | c =>
    if c.toNat < 0x20 then
      ['\\', 'u', '0', '0', hexDigit (c.toNat / 16), hexDigit (c.toNat % 16)]
    else
      [c]

/-- A text between quotes. -/
def writeText (s : String) : List Char :=
  '"' :: s.toList.flatMap escape ++ ['"']

/-! ## Values -/

mutual

/-- The characters of a value. -/
def write : Json → List Char
  | null => "null".toList
  | number literal => literal.toList
  | text content => writeText content
  | array items => '[' :: writeItems items ++ [']']
  | object members => '\x7b' :: writeMembers members ++ ['\x7d']

/-- The characters of items, with commas between them. -/
def writeItems : List Json → List Char
  | [] => []
  | [item] => write item
  | item :: items => write item ++ ',' :: writeItems items

/-- The characters of members, with commas between them. -/
def writeMembers : List (String × Json) → List Char
  | [] => []
  | [(name, value)] => writeText name ++ ':' :: write value
  | (name, value) :: members => writeText name ++ ':' :: write value ++ ',' :: writeMembers members

end

/-- The text of a value. -/
def compact (j : Json) : String := String.ofList j.write

end Json

end Calculator
