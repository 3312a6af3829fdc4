/-!
# Journal levels

How important an entry of the journal is. A level lets through the entries of
its own level and of all quieter ones.

Results:

* `allows_iff`: a level lets an entry through exactly when the entry is as quiet
  or quieter.
* `ofName?_name`: the name of a level reads back as the level.
-/

namespace Calculator.Journal

/-- The importance of an entry, the quietest first. -/
inductive Level where
  | error
  | warn
  | info
  | debug
  | trace
  deriving DecidableEq

namespace Level

/-- All levels, the quietest first. -/
def all : List Level := [error, warn, info, debug, trace]

/-- The place of a level in `all`. -/
def loudness : Level → Nat
  | error => 0
  | warn => 1
  | info => 2
  | debug => 3
  | trace => 4

/-- Whether entries of a level pass a threshold. -/
def allows (threshold entry : Level) : Bool := entry.loudness ≤ threshold.loudness

/-- The name in settings. -/
def name : Level → String
  | error => "error"
  | warn => "warn"
  | info => "info"
  | debug => "debug"
  | trace => "trace"

/-- The name in a journal line, five characters wide. -/
def label : Level → String
  | error => "ERROR"
  | warn => " WARN"
  | info => " INFO"
  | debug => "DEBUG"
  | trace => "TRACE"

/-- The name in a dump of the settings. -/
def title : Level → String
  | error => "Error"
  | warn => "Warn"
  | info => "Info"
  | debug => "Debug"
  | trace => "Trace"

/-- The level of a name in lower case; `silent` stands for errors alone. -/
def ofName? (s : String) : Option Level :=
  match s with
  | "silent" => some error
  | "error" => some error
  | "warn" => some warn
  | "info" => some info
  | "debug" => some debug
  | "trace" => some trace
  | _ => none

/-- The level of a name in letters of any case. No letter outside ASCII has the
lower case of a letter in one of the names. -/
def ofAnyCase? (s : String) : Option Level :=
  ofName? (String.ofList (s.toList.map Char.toLower))

/-- The complaint about a name that is no level. -/
def unknownName (s : String) : String :=
  "unknown log level '" ++ s ++ "' (expected silent, error, warn, info, debug or trace)"

theorem allows_iff {threshold entry : Level} :
    threshold.allows entry = true ↔ entry.loudness ≤ threshold.loudness := by
  simp [allows]

theorem loudness_inj {a b : Level} : a.loudness = b.loudness ↔ a = b := by
  cases a <;> cases b <;> decide

@[simp] theorem ofName?_name (l : Level) : ofName? l.name = some l := by
  cases l <;> decide

end Level

end Calculator.Journal
