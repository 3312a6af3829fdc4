/-!
# Terminal control sequences

The plain part of a text that may hold control sequences of a terminal. A
sequence begins with the escape character; what follows says which kind it is and
where it ends. Sequences and control characters are left out, blanks are kept
wherever the terminal would act on them.

Results:

* `plain_of_printing`: a text with neither controls nor escapes is its own plain
  part.
-/

namespace Calculator.Text

/-- Where in a control sequence the reading of a text stands. -/
inductive Mode where
  /-- Outside of any sequence. -/
  | ground
  /-- After an escape character. -/
  | escape
  /-- In an escape sequence of several characters. -/
  | extended
  /-- In a control sequence with parameters, which ends with a letter. -/
  | control
  /-- At the head of a device string. -/
  | device
  /-- In the parameters of a device string. -/
  | deviceParameter
  /-- After the parameters of a device string. -/
  | deviceExtended
  /-- In a string that the next escape character ends, or a string terminator. -/
  | string
  /-- In an operating system command, which the next escape character or a bell ends. -/
  | command
  deriving DecidableEq

/-- The character that begins a control sequence. -/
def escapeCharacter : Char := '\x1b'

/-- The byte of a string terminator, which may also be a part of a character. -/
def terminatorByte : UInt8 := 0x9C

/-- Whether a code lies between two others. -/
def within (low high : Nat) (code : Nat) : Bool := low ≤ code && code ≤ high

/-- Whether a character outside ASCII holds the byte of a string terminator. -/
def holdsTerminator (c : Char) : Bool :=
  0x80 ≤ c.toNat && (String.utf8EncodeChar c).contains terminatorByte

/-- The mode after the character that follows an escape character. -/
def Mode.afterEscape (code : Nat) : Mode :=
  if within 0x20 0x2F code then extended
  else if code = 0x50 then device
  else if code = 0x58 || code = 0x5E || code = 0x5F then string
  else if code = 0x5B then control
  else if code = 0x5D then command
  else if within 0x30 0x7E code then ground
  else escape

/-- The mode after a character that neither begins a sequence nor cancels one. -/
def Mode.proceed (mode : Mode) (c : Char) : Mode :=
  let code := c.toNat
  match mode with
  | ground => ground
  | escape => afterEscape code
  | extended => if within 0x30 0x7E code then ground else extended
  | control => if within 0x40 0x7E code then ground else control
  | device =>
    if within 0x20 0x2F code then deviceExtended
    else if within 0x30 0x3F code then deviceParameter
    else if within 0x40 0x7E code then string
    else device
  | deviceParameter =>
    if within 0x20 0x2F code then deviceExtended
    else if within 0x3C 0x7E code then string
    else deviceParameter
  | deviceExtended => if within 0x30 0x7E code then string else deviceExtended
  | string => if holdsTerminator c then ground else string
  | command => if code = 0x07 then ground else command

/-- The mode after a character: an escape character begins a sequence in every mode,
and two control characters cancel one. -/
def Mode.next (mode : Mode) (c : Char) : Mode :=
  if c = escapeCharacter then escape
  else if c = '\x18' || c = '\x1a' then ground
  else mode.proceed c

/-- Whether a terminal acts on control characters in a mode, and does not take them
as a part of a string. -/
def Mode.acts : Mode → Bool
  | ground | escape | extended | control => true
  | _ => false

/-- Control characters that are blanks. -/
def isBlankControl (c : Char) : Bool := c == '\t' || c == '\n' || c == '\x0c' || c == '\r'

/-- Whether a character is kept in a mode. -/
def Mode.keeps (mode : Mode) (c : Char) : Bool :=
  if isBlankControl c then mode.acts
  else mode = ground && 0x20 ≤ c.toNat && c != '\x7f'

/-- The plain part of a text, read from a mode on. Once a character is kept, the
text is read as if outside of any sequence for as long as its characters can be
kept there; the mode is taken up again after that. -/
def plainFrom (mode : Mode) (printing : Bool) : List Char → List Char
  | [] => []
  | c :: cs =>
    if (if printing then Mode.ground else mode).keeps c then
      c :: plainFrom (if c.toNat < 0x80 then mode else .ground) true cs
    else
      plainFrom (mode.next c) false cs

/-- The plain part of a text. -/
def plain (s : String) : String := String.ofList (plainFrom .ground false s.toList)

theorem plainFrom_of_keeps {cs : List Char} (h : ∀ c ∈ cs, Mode.ground.keeps c = true)
    (printing : Bool) : plainFrom .ground printing cs = cs := by
  induction cs generalizing printing with
  | nil => rfl
  | cons c cs ih =>
    have hc := h c (by simp)
    simp [plainFrom, hc, ih (fun d hd => h d (by simp [hd]))]

theorem plain_of_printing {s : String} (h : ∀ c ∈ s.toList, Mode.ground.keeps c = true) :
    plain s = s := by
  rw [plain, plainFrom_of_keeps h, String.ofList_toList]

end Calculator.Text
