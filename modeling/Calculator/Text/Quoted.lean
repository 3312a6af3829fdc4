import Calculator.Text.Hidden

/-!
# Quoted texts

A text between double quotes, as it stands in complaints about settings: quotes,
backslashes and hidden characters are written as escapes.
-/

namespace Calculator.Text

/-- How a character stands inside a quoted text. -/
def quotedForm (c : Char) : List Char :=
  match c with
  | '\x00' => ['\\', '0']
  | '\t' => ['\\', 't']
  | '\r' => ['\\', 'r']
  | '\n' => ['\\', 'n']
  | '\\' => ['\\', '\\']
  | '"' => ['\\', '"']
  | c =>
    if isHidden c then
      '\\' :: 'u' :: '\x7b' :: Nat.toDigits 16 c.toNat ++ ['\x7d']
    else
      [c]

/-- A text between double quotes. -/
def quoted (s : String) : String :=
  String.ofList ('"' :: s.toList.flatMap quotedForm ++ ['"'])

end Calculator.Text
