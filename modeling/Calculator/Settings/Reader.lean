import Calculator.Json
import Calculator.Json.Document
import Calculator.Settings
import Calculator.Text.Quoted

/-!
# Reading settings

Settings are written as a structured text. A record is an object with named
fields or an array with its first fields in order. What is left out keeps its
default, unknown names are passed over, and a known name may stand only once.
The first thing wrong from the left decides which refusal is given.
-/

namespace Calculator.Settings

open Calculator.Json (Document Number)
open Calculator.Journal (Level)

/-! ## Refusals -/

/-- What stands where something else is wanted. -/
inductive Found where
  | null
  | bool (b : Bool)
  | integer (n : Int)
  | double (x : Float)
  | text (content : String)
  | sequence
  | map

/-- Why a text holds no settings. -/
inductive Refusal where
  /-- The text is not well formed, or a number is too large. -/
  | malformed
  | wrongType (found : Found) (expected : String)
  | outOfRange (n : Int) (expected : String)
  | unknownLevel (name : String)
  | duplicateField (name : String)

/-- The wording of what was found. -/
def Found.describe : Found → String
  | null => "null"
  | bool true => "boolean `true`"
  | bool false => "boolean `false`"
  | integer n => "integer `" ++ n.repr ++ "`"
  | double x => "floating point `" ++ Json.amount.write x ++ "`"
  | text content => "string " ++ Text.quoted content
  | sequence => "sequence"
  | map => "map"

/-- The wording of a refusal; a malformed text has none. -/
def Refusal.message? : Refusal → Option String
  | malformed => none
  | wrongType found expected =>
    some ("invalid type: " ++ found.describe ++ ", expected " ++ expected)
  | outOfRange n expected =>
    some ("invalid value: integer `" ++ n.repr ++ "`, expected " ++ expected)
  | unknownLevel name =>
    some ("unknown variant `" ++ name ++
      "`, expected one of `error`, `silent`, `warn`, `info`, `debug`, `trace`")
  | duplicateField name => some ("duplicate field `" ++ name ++ "`")

/-- What a number literal is found to be. -/
def Found.ofNumber? (n : Number) : Option Found :=
  match n.meaning with
  | .natural k => some (.integer k)
  | .negative k => some (.integer (-k))
  | .double x => some (.double x)
  | .tooLarge => none

/-- What a document is found to be, if its beginning is well formed. -/
def Found.ofDocument? : Document → Option Found
  | .null => some .null
  | .bool b => some (.bool b)
  | .number n => ofNumber? n
  | .text content => content.map .text
  | .array _ => some .sequence
  | .object _ => some .map
  | .broken => none

/-- The refusal of a document where something else is wanted. -/
def refuse (d : Document) (expected : String) : Refusal :=
  match Found.ofDocument? d with
  | some found => .wrongType found expected
  | none => .malformed

/-! ## Single values -/

/-- Reads a size. -/
def readSize (d : Document) : Except Refusal Nat :=
  match d with
  | .number n =>
    match n.meaning with
    | .natural k => .ok k
    | .negative k => .error (.outOfRange (-k) "usize")
    | _ => .error (refuse d "usize")
  | d => .error (refuse d "usize")

/-- Reads the name of a level. -/
def readLevelName (name : String) : Except Refusal Level :=
  match Level.ofName? name with
  | some level => .ok level
  | none => .error (.unknownLevel name)

/-- Reads a level: its name, or an object with the name as its only member and
`null` as its value. -/
def readLevel : Document → Except Refusal Level
  | .text (some name) => readLevelName name
  | .object ((some name, value) :: members) => do
    let level ← readLevelName name
    match value with
    | .null => if members.isEmpty then .ok level else .error .malformed
    | value => .error (refuse value "unit")
  | _ => .error .malformed

/-- Reads a level that may be left open with `null`. -/
def readOwnLevel : Document → Except Refusal (Option Level)
  | .null => .ok none
  | d => (readLevel d).map some

/-! ## Records -/

/-- A field of a record: its name, and how its value goes into the record. -/
structure Field (α : Type) where
  name : String
  read : α → Document → Except Refusal α

/-- Reads the values of a record's first fields in order; there may be no more
values than fields. -/
def readItems {α : Type} : List (Field α) → α → List Document → Except Refusal α
  | _, record, [] => .ok record
  | [], _, _ :: _ => .error .malformed
  | field :: fields, record, item :: items => do
    let next ← field.read record item
    readItems fields next items

/-- Reads named values into a record; `seen` holds the known names so far. -/
def readMembers {α : Type} (fields : List (Field α)) (seen : List String) (record : α) :
    List (Option String × Document) → Except Refusal α
  | [] => .ok record
  | (some name, value) :: members =>
    match fields.find? fun field => field.name == name with
    | some field => do
      if seen.contains name then
        .error (.duplicateField name)
      else
        let next ← field.read record value
        readMembers fields (name :: seen) next members
    | none =>
      if value.isSound then readMembers fields seen record members else .error .malformed
  | (none, _) :: _ => .error .malformed

/-- Reads a record, beginning with its defaults. -/
def readRecord {α : Type} (title : String) (fields : List (Field α)) (default : α) :
    Document → Except Refusal α
  | .array items => readItems fields default items
  | .object members => readMembers fields [] default members
  | d => .error (refuse d ("struct " ++ title))

/-- The fields of the limits. -/
def limitFields : List (Field Limits) :=
  [⟨"max_input_len", fun l d => do return { l with inputLength := ← readSize d }⟩,
   ⟨"max_stack_size", fun l d => do return { l with operands := ← readSize d }⟩]

/-- The fields of the journal settings. -/
def journalFields : List (Field JournalSettings) :=
  [⟨"global", fun j d => do return { j with global := ← readLevel d }⟩,
   ⟨"lexer", fun j d => do return { j with reading := ← readOwnLevel d }⟩,
   ⟨"translator", fun j d => do return { j with ordering := ← readOwnLevel d }⟩,
   ⟨"evaluator", fun j d => do return { j with evaluating := ← readOwnLevel d }⟩]

/-- Reads limits. -/
def readLimits : Document → Except Refusal Limits := readRecord "LimitConfig" limitFields {}

/-- Reads journal settings. -/
def readJournal : Document → Except Refusal JournalSettings :=
  readRecord "LogConfig" journalFields {}

/-- The fields of the settings. -/
def fields : List (Field Settings) :=
  [⟨"limits", fun s d => do return { s with limits := ← readLimits d }⟩,
   ⟨"log", fun s d => do return { s with journal := ← readJournal d }⟩]

/-- Reads settings from a document. -/
def ofDocument : Document → Except Refusal Settings := readRecord "ShuntConfig" fields {}

/-- Reads settings from a text; only blanks may follow the value. -/
def parse (source : String) : Except Refusal Settings := do
  let (document, rest) := Document.read source.toList
  let settings ← ofDocument document
  match rest with
  | some rest => if (Json.skipSpace rest).isEmpty then .ok settings else .error .malformed
  | none => .error .malformed

end Calculator.Settings
