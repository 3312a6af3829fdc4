import Calculator.Command.Arguments
import Calculator.Journal.Transcript
import Calculator.Rendering
import Calculator.Text.Blank

/-!
# What the command prints

One expression, or all expressions on the lines of an input. Results go to the
output; complaints and the journal go, in order, to the error output. A line that
fails does not keep the next ones from being evaluated.

Results:

* `append_assoc`: printing is appending.
* `evaluateAll_append`: the lines of two inputs are evaluated one after the other.
-/

namespace Calculator.Command

open Calculator.Journal (Event)

/-- A line of the error output: an event of the journal, or a complaint. -/
inductive Note where
  | event (e : Event)
  | complaint (text : String)

/-- The text of a note; an event that is not written has none. -/
def Note.text (s : JournalSettings) : Note → String
  | event e => if e.isWritten s then e.line ++ "\n" else ""
  | complaint text => "error: " ++ text ++ "\n"

/-- What is printed so far: the output's lines and the notes, and how many
expressions were evaluated and how many lines failed. -/
structure Printed where
  lines : List String := []
  notes : List Note := []
  evaluated : Nat := 0
  failed : Nat := 0

namespace Printed

/-- What is printed one after the other. -/
def append (p q : Printed) : Printed where
  lines := p.lines ++ q.lines
  notes := p.notes ++ q.notes
  evaluated := p.evaluated + q.evaluated
  failed := p.failed + q.failed

instance : Append Printed := ⟨append⟩

theorem append_def (p q : Printed) : p ++ q = p.append q := rfl

theorem append_assoc (p q r : Printed) : p ++ q ++ r = p ++ (q ++ r) := by
  simp [append_def, append, Nat.add_assoc]

@[simp] theorem empty_append (p : Printed) : ({} : Printed) ++ p = p := by
  simp [append_def, append]

@[simp] theorem append_empty (p : Printed) : p ++ ({} : Printed) = p := by
  simp [append_def, append]

end Printed

/-! ## One expression -/

/-- The options of the calculations that the arguments ask for. -/
def Arguments.options (a : Arguments) (limits : Limits) : Options where
  limits := limits
  showTokens := a.showTokens
  showPostfix := a.showPostfix

/-- The tokens of an expression in one line. -/
def tokenLine (source : String) : String :=
  "tokens: [" ++ ", ".intercalate ((Token.tokenize source).map Token.text) ++ "]"

/-- The lines of an outcome in text. -/
def textLines (a : Arguments) (source : String) (outcome : Except Fault Outcome) : List String :=
  (if a.showTokens then [tokenLine source] else []) ++
    match outcome with
    | .ok o =>
      (if a.showPostfix then ["postfix: " ++ o.postfixText] else []) ++
        [Calculation.amount.write o.value]
    | .error _ => []

/-- The complaint about a fault. -/
def faultNotes : Except Fault Outcome → List Note
  | .ok _ => []
  | .error fault => [.complaint fault.message]

/-- Evaluates an expression. The tokens of the text output are read once more. -/
def evaluateOne (a : Arguments) (limits : Limits) (source : String) : Printed :=
  let options := a.options limits
  let outcome := Calculation.run options source
  let events := (Transcript.calculation options source).map Note.event
  let failed := if outcome.isOk then 0 else 1
  match a.format with
  | some .json =>
    { lines := [Rendering.line source outcome]
      notes := events ++ (Transcript.rendering source outcome).map Note.event
      evaluated := 1
      failed }
  | _ =>
    let again := if a.showTokens then (Transcript.reading source).map Note.event else []
    { lines := textLines a source outcome
      notes := events ++ again ++ faultNotes outcome
      evaluated := 1
      failed }

/-! ## All lines of an input -/

/-- The lines of an input: what stands before, between and after its line ends,
without an empty rest at the end. -/
def inputLines (bytes : List UInt8) : List (List UInt8) :=
  let parts := bytes.splitOn 10
  if parts.getLast? = some [] then parts.dropLast else parts

/-- The text that bytes encode. -/
def decodeText? (bytes : List UInt8) : Option String :=
  String.fromUTF8? ⟨bytes.toArray⟩

/-- The complaint about bytes that encode no text. -/
def undecodable : String := "stream did not contain valid UTF-8"

/-- Evaluates the expression on a line, if the line holds more than blanks. -/
def evaluateLine (a : Arguments) (limits : Limits) (line : List UInt8) : Printed :=
  match decodeText? line with
  | none => { notes := [.complaint undecodable], failed := 1 }
  | some text =>
    let source := Text.trim text
    if source.isEmpty then {} else evaluateOne a limits source

/-- Evaluates lines one after the other. -/
def evaluateAll (a : Arguments) (limits : Limits) (lines : List (List UInt8)) : Printed :=
  lines.foldr (fun line rest => evaluateLine a limits line ++ rest) {}

/-- Evaluates the lines of an input and tells how many there were. -/
def evaluateInput (a : Arguments) (limits : Limits) (bytes : List UInt8) : Printed :=
  let printed := evaluateAll a limits (inputLines bytes)
  printed ++ { notes := [.event (.inputFinished printed.evaluated printed.failed)] }

theorem evaluateAll_append (a : Arguments) (limits : Limits) (ls ms : List (List UInt8)) :
    evaluateAll a limits (ls ++ ms) = evaluateAll a limits ls ++ evaluateAll a limits ms := by
  induction ls with
  | nil => simp [evaluateAll]
  | cons line ls ih =>
    simp only [evaluateAll, List.cons_append, List.foldr_cons] at ih ⊢
    rw [ih, Printed.append_assoc]

end Calculator.Command
