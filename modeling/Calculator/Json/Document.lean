import Calculator.Json.Number

/-!
# Structured texts as read

The value that a structured text spells, as far as it can be read. Reading goes
from left to right and never fails: where the text stops being well formed, the
value has a `broken` part, and everything before it is kept. A reader that walks
through the value in order therefore meets its own complaints and the damage in
the order of the text.

A text with escapes that make no characters has no content; where no content is
wanted, it is well formed all the same.
-/

namespace Calculator.Json

/-- A structured text as read. -/
inductive Document where
  | null
  | bool (b : Bool)
  | number (n : Number)
  | text (content : Option String)
  | array (items : List Document)
  | object (members : List (Option String × Document))
  | broken

/-- Blank characters between the parts of a structured text. -/
def isSpace (c : Char) : Bool := c == ' ' || c == '\n' || c == '\t' || c == '\r'

/-- A text without the blanks at its start. -/
def skipSpace (cs : List Char) : List Char := cs.dropWhile isSpace

/-! ## Texts -/

/-- A part of a quoted text: a character, or the code unit of an escape. -/
inductive Piece where
  | char (c : Char)
  | unit (code : Nat)
  deriving DecidableEq

/-- The value of a hexadecimal digit. -/
def hexValue? (c : Char) : Option Nat :=
  if c.isDigit then some (c.toNat - '0'.toNat)
  else if 'a' ≤ c && c ≤ 'f' then some (c.toNat - 'a'.toNat + 10)
  else if 'A' ≤ c && c ≤ 'F' then some (c.toNat - 'A'.toNat + 10)
  else none

/-- The code unit of four hexadecimal digits. -/
def unit? (a b c d : Char) : Option Nat := do
  return 4096 * (← hexValue? a) + 256 * (← hexValue? b) + 16 * (← hexValue? c) + (← hexValue? d)

/-- The character of an escape with one letter. -/
def escaped? : Char → Option Char
  | '"' => some '"'
  | '\\' => some '\\'
  | '/' => some '/'
  | 'b' => some '\x08'
  | 'f' => some '\x0c'
  | 'n' => some '\n'
  | 'r' => some '\r'
  | 't' => some '\t'
  | _ => none

/-- Cuts a quoted text off, up to its closing quote. Control characters have to be
escaped. -/
def splitText : List Char → Option (List Piece × List Char)
  | [] => none
  | '"' :: rest => some ([], rest)
  | '\\' :: 'u' :: a :: b :: c :: d :: rest => do
    let code ← unit? a b c d
    let (pieces, rest) ← splitText rest
    return (.unit code :: pieces, rest)
  | '\\' :: letter :: rest => do
    let c ← escaped? letter
    let (pieces, rest) ← splitText rest
    return (.char c :: pieces, rest)
  | c :: rest =>
    if c.toNat < 0x20 || c == '\\' then
      none
    else do
      let (pieces, rest) ← splitText rest
      return (.char c :: pieces, rest)

/-- The first half of a character that takes two code units. -/
def isHigh (code : Nat) : Bool := 0xD800 ≤ code && code < 0xDC00

/-- The second half of a character that takes two code units. -/
def isLow (code : Nat) : Bool := 0xDC00 ≤ code && code < 0xE000

/-- The characters of the pieces of a text; half a character makes none. -/
def characters? : List Piece → Option (List Char)
  | [] => some []
  | .char c :: rest => (characters? rest).map (c :: ·)
  | .unit high :: .unit low :: rest =>
    if isHigh high && isLow low then
      (characters? rest).map
        (Char.ofNat (0x10000 + (high - 0xD800) * 0x400 + (low - 0xDC00)) :: ·)
    else if isHigh high || isLow high then
      none
    else
      (characters? (.unit low :: rest)).map (Char.ofNat high :: ·)
  | .unit code :: rest =>
    if isHigh code || isLow code then none else (characters? rest).map (Char.ofNat code :: ·)

/-- Cuts a text with its quotes off, and takes its content. -/
def splitContent : List Char → Option (Option String × List Char)
  | '"' :: rest =>
    (splitText rest).map fun (pieces, rest) => ((characters? pieces).map String.ofList, rest)
  | _ => none

/-! ## Values -/

/-- Cuts a fixed word off a text. -/
def splitWord (word : List Char) (cs : List Char) : Option (List Char) :=
  if word.isPrefixOf cs then some (cs.drop word.length) else none

namespace Document

/-- A value as read and the text after it; no text is left where the value is broken. -/
abbrev Read := Document × Option (List Char)

/-- The end of what can be read. -/
def stop : Read := (broken, none)

/-- A fixed word as a value. -/
def ofWord (word : String) (value : Document) (cs : List Char) : Read :=
  match splitWord word.toList cs with
  | some rest => (value, some rest)
  | none => stop

/-- A value with no parts, which the characters `cs` begin with. -/
def ofScalar (cs : List Char) : Read :=
  match cs with
  | 'n' :: _ => ofWord "null" null cs
  | 't' :: _ => ofWord "true" (bool true) cs
  | 'f' :: _ => ofWord "false" (bool false) cs
  | '"' :: _ =>
    match splitContent cs with
    | some (content, rest) => (text content, some rest)
    | none => stop
  | _ =>
    match Number.split cs with
    | some (n, rest) => (number n, some rest)
    | none => stop

mutual

/-- Reads a value, with `fuel` steps to go. -/
def ofChars : Nat → List Char → Read
  | 0, _ => stop
  | fuel + 1, cs =>
    match skipSpace cs with
    | '[' :: rest =>
      match skipSpace rest with
      | ']' :: rest => (array [], some rest)
      | _ =>
        let (items, rest) := itemsOfChars fuel rest
        (array items, rest)
    | '\x7b' :: rest =>
      match skipSpace rest with
      | '\x7d' :: rest => (object [], some rest)
      | _ =>
        let (members, rest) := membersOfChars fuel rest
        (object members, rest)
    | cs => ofScalar cs

/-- Reads one or more items up to the closing bracket. -/
def itemsOfChars : Nat → List Char → List Document × Option (List Char)
  | 0, _ => ([broken], none)
  | fuel + 1, cs =>
    match ofChars fuel cs with
    | (item, none) => ([item], none)
    | (item, some rest) =>
      match skipSpace rest with
      | ',' :: rest =>
        let (items, rest) := itemsOfChars fuel rest
        (item :: items, rest)
      | ']' :: rest => ([item], some rest)
      | _ => ([item, broken], none)

/-- Reads one or more members up to the closing brace. -/
def membersOfChars : Nat → List Char → List (Option String × Document) × Option (List Char)
  | 0, _ => ([(none, broken)], none)
  | fuel + 1, cs =>
    match splitContent (skipSpace cs) with
    | none => ([(none, broken)], none)
    | some (name, rest) =>
      match skipSpace rest with
      | ':' :: rest =>
        match ofChars fuel rest with
        | (value, none) => ([(name, value)], none)
        | (value, some rest) =>
          match skipSpace rest with
          | ',' :: rest =>
            let (members, rest) := membersOfChars fuel rest
            ((name, value) :: members, rest)
          | '\x7d' :: rest => ([(name, value)], some rest)
          | _ => ([(name, value), (none, broken)], none)
      | _ => ([(name, broken)], none)

end

/-- Reads a value; every step of the reading but one in two takes a character. -/
def read (cs : List Char) : Read := ofChars (2 * cs.length + 2) cs

/-! ## Well-formed documents -/

mutual

/-- Whether no part of a document is broken. -/
def isSound : Document → Bool
  | null | bool _ | number _ | text _ => true
  | array items => areSound items
  | object members => membersAreSound members
  | broken => false

/-- Whether all items are sound. -/
def areSound : List Document → Bool
  | [] => true
  | item :: items => item.isSound && areSound items

/-- Whether the values of all members are sound. -/
def membersAreSound : List (Option String × Document) → Bool
  | [] => true
  | (_, value) :: members => value.isSound && membersAreSound members

end

end Document

end Calculator.Json
