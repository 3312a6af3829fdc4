import Calculator.Settings

/-!
# Journal entries

What is worth a line in the journal, and the line that is written for it: the
level, the part of the program that speaks, a message and its values.
-/

namespace Calculator.Journal

/-- The part of the program that speaks. -/
inductive Origin where
  | phase (p : Phase)
  | calculation
  | command
  deriving DecidableEq

namespace Origin

/-- All parts. -/
def all : List Origin := Phase.all.map phase ++ [calculation, command]

/-- The name of a part in the journal. -/
def name : Origin → String
  | phase p => "shunt::" ++ p.name
  | calculation => "shunt::api"
  | command => "shunt::cli"

end Origin

/-- The level of a part: a phase has its own, all else the global one. -/
def threshold (s : JournalSettings) : Origin → Level
  | .phase p => s.levelOf p
  | _ => s.global

/-- The level of any name: that of the part whose name it begins with, or else the
global one. No part's name begins another's, so there is at most one. -/
def thresholdOfName (s : JournalSettings) (name : String) : Level :=
  match Origin.all.find? fun origin => name.startsWith origin.name with
  | some origin => threshold s origin
  | none => s.global

/-- The levels that pass for a name, the quietest first. -/
def enabled (s : JournalSettings) (name : String) : List Level :=
  Level.all.filter (thresholdOfName s name).allows

/-! ## Events -/

/-- What is worth a line in the journal. -/
inductive Event where
  | readingStarted (bytes : Nat)
  | tokenRead (token : Token)
  | readingFinished (count : Nat)
  | orderingStarted (count : Nat)
  | released (token : Token)
  | operatorPushed (op : Operator) (depth : Nat)
  | bracketMatched (bracket : Bracket)
  | tokenRejected (text : String)
  | orderingFinished (count : Nat)
  | evaluationStarted (count : Nat)
  | operatorApplied (a : Float) (op : Operator) (b result : Float)
  | evaluationFinished (value : Float)
  | calculationStarted
  | inputRejected (length limit : Nat)
  | tokensShown (text : String)
  | postfixShown (text : String)
  | arranged (tokens ordered : Nat)
  | calculationFinished (value : Float)
  | settingsLoaded (settings : Settings)
  | inputFinished (evaluated failed : Nat)

/-- Doubles are positional from `0.0001` up to sixteen digits, whole numbers end in
`.0`, exponents have no plus sign, and a tie goes up. -/
def amount : Decimal.Layout where
  positional e := -4 ≤ e && e < 16
  pointZero := true
  plusSign := false
  tie := .up
  undefinedText := "NaN"
  infinityText := "inf"
  negativeInfinityText := "-inf"

/-- A value after the message, with its name. -/
def value (name text : String) : String := " " ++ name ++ "=" ++ text

/-- A count after the message. -/
def count (name : String) (n : Nat) : String := value name n.repr

/-- A double after the message. -/
def double (name : String) (x : Float) : String := value name (amount.write x)

/-- How a character stands in a message: one that could steer a terminal is
replaced by its code. -/
def visible (c : Char) : List Char :=
  match c with
  | '\x07' => "\\x07".toList
  | '\x08' => "\\x08".toList
  | '\x0c' => "\\x0c".toList
  | '\x1b' => "\\x1b".toList
  | '\x7f' => "\\x7f".toList
  | c =>
    if 0x80 ≤ c.toNat && c.toNat ≤ 0x9F then
      "\\u\x7b".toList ++ Nat.toDigits 16 c.toNat ++ ['\x7d']
    else
      [c]

/-- A message in which no character can steer a terminal. -/
def visibleText (s : String) : String := String.ofList (s.toList.flatMap visible)

namespace Event

/-- The part of the program that speaks. -/
def origin : Event → Origin
  | readingStarted _ | tokenRead _ | readingFinished _ => .phase .reading
  | orderingStarted _ | released _ | operatorPushed _ _ | bracketMatched _ | tokenRejected _
  | orderingFinished _ => .phase .ordering
  | evaluationStarted _ | operatorApplied _ _ _ _ | evaluationFinished _ => .phase .evaluating
  | calculationStarted | inputRejected _ _ | tokensShown _ | postfixShown _ | arranged _ _
  | calculationFinished _ => .calculation
  | settingsLoaded _ | inputFinished _ _ => .command

/-- The importance of the event. -/
def level : Event → Level
  | readingStarted _ | released _ | operatorPushed _ _ | bracketMatched _
  | operatorApplied _ _ _ _ => .trace
  | tokenRead (.invalid _) => .debug
  | tokenRead _ => .trace
  | readingFinished _ | orderingStarted _ | tokenRejected _ | orderingFinished _
  | evaluationStarted _ | evaluationFinished _ | inputRejected _ _ | arranged _ _
  | settingsLoaded _ => .debug
  | calculationStarted | tokensShown _ | postfixShown _ | calculationFinished _
  | inputFinished _ _ => .info

/-- The message of the event and its values. -/
def text : Event → String
  | readingStarted bytes => "Creating new Lexer" ++ count "len" bytes
  | tokenRead (.invalid complaint) => "Produced invalid token " ++ visibleText complaint
  | tokenRead t => "Produced token" ++ value "kind" t.kind.title ++ value "text" t.text
  | readingFinished n => "Tokenize finished" ++ count "count" n
  | orderingStarted n => "Starting shunting yard" ++ count "count" n
  | released t => "Pop to output" ++ value "token" t.text
  | operatorPushed op depth =>
    "Push operator" ++ value "op" op.symbol.toString ++ count "depth" depth
  | bracketMatched b => "Matched bracket" ++ value "bracket" b.closer.toString
  | tokenRejected complaint => "Rejecting invalid token" ++ value "text" complaint
  | orderingFinished n => "Shunting yard finished" ++ count "count" n
  | evaluationStarted n => "Starting evaluation" ++ count "count" n
  | operatorApplied a op b result =>
    "Applied operator" ++ double "a" a ++ value "op" op.symbol.toString ++ double "b" b ++
      double "result" result
  | evaluationFinished x => "Evaluation finished" ++ double "value" x
  | calculationStarted => "Starting execution"
  | inputRejected length limit => "Input rejected" ++ count "len" length ++ count "limit" limit
  | tokensShown s => "Tokens" ++ value "tokens" s
  | postfixShown s => "Postfix" ++ value "postfix" s
  | arranged tokens ordered =>
    "Translation completed" ++ count "tokens" tokens ++ count "postfix" ordered
  | calculationFinished x => "Execution completed" ++ double "value" x
  | settingsLoaded s => "Configuration loaded" ++ value "config" s.dump
  | inputFinished evaluated failed =>
    "Finished reading input" ++ count "evaluated" evaluated ++ count "failed" failed

/-- The line of the event. -/
def line (e : Event) : String :=
  e.level.label ++ " " ++ e.origin.name ++ ": " ++ e.text

/-- Whether the event is written under the settings. -/
def isWritten (s : JournalSettings) (e : Event) : Bool := (threshold s e.origin).allows e.level

end Event

/-- The lines of events under the settings. -/
def lines (s : JournalSettings) (events : List Event) : List String :=
  (events.filter (Event.isWritten s)).map Event.line

end Calculator.Journal
