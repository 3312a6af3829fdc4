import Calculator.Calculation
import Calculator.Journal.Level

/-!
# Settings

What a user may set: the limits of calculations, and how much of each phase the
journal shows.
-/

namespace Calculator

open Journal (Level)

/-- A phase of a calculation. -/
inductive Phase where
  | reading
  | ordering
  | evaluating
  deriving DecidableEq

namespace Phase

/-- All phases in the order in which they run. -/
def all : List Phase := [reading, ordering, evaluating]

/-- The name of a phase in settings and in the journal. -/
def name : Phase → String
  | reading => "lexer"
  | ordering => "translator"
  | evaluating => "evaluator"

end Phase

/-- How much the journal shows: a global level, and levels of single phases that
take its place. -/
structure JournalSettings where
  global : Level := .warn
  reading : Option Level := none
  ordering : Option Level := none
  evaluating : Option Level := none
  deriving DecidableEq

namespace JournalSettings

/-- The level set for a phase itself. -/
def own (s : JournalSettings) : Phase → Option Level
  | .reading => s.reading
  | .ordering => s.ordering
  | .evaluating => s.evaluating

/-- The level of a phase: its own, or else the global one. -/
def levelOf (s : JournalSettings) (p : Phase) : Level := (s.own p).getD s.global

end JournalSettings

/-- What a user may set. -/
structure Settings where
  limits : Limits := {}
  journal : JournalSettings := {}
  deriving DecidableEq

namespace Settings

/-- The options of calculations under these settings. -/
def options (s : Settings) : Options := { limits := s.limits }

/-! ## Dumps -/

/-- A record in a dump: its name and its fields. -/
def dumpRecord (name : String) (fields : List (String × String)) : String :=
  name ++ " \x7b " ++ ", ".intercalate (fields.map fun f => f.1 ++ ": " ++ f.2) ++ " \x7d"

/-- An optional level in a dump. -/
def dumpOwn : Option Level → String
  | some level => "Some(" ++ level.title ++ ")"
  | none => "None"

/-- The settings in one line. -/
def dump (s : Settings) : String :=
  dumpRecord "ShuntConfig"
    [("limits", dumpRecord "LimitConfig"
        [("max_input_len", s.limits.inputLength.repr),
         ("max_stack_size", s.limits.operands.repr)]),
     ("log", dumpRecord "LogConfig"
        [("global", s.journal.global.title),
         ("lexer", dumpOwn s.journal.reading),
         ("translator", dumpOwn s.journal.ordering),
         ("evaluator", dumpOwn s.journal.evaluating)])]

end Settings

end Calculator
