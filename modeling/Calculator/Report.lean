import Calculator.Fault
import Calculator.Json

/-!
# Reports

What is shown of a fault: where it was found, its name and its wording, as one
line of text or as a structured value.
-/

namespace Calculator

/-- What is shown of a fault. -/
structure Report where
  phase : String
  title : String
  message : String
  deriving DecidableEq

namespace Report

/-- The report of a fault. -/
def ofFault (fault : Fault) : Report where
  phase := fault.phase
  title := fault.title
  message := fault.message

/-- Phase, name and wording in one line. -/
def display (r : Report) : String :=
  "[" ++ r.phase ++ "] " ++ r.title ++ " error: " ++ r.message

/-- Phase and wording in one line. -/
def short (r : Report) : String :=
  r.phase ++ ": " ++ r.message

/-- The report as a structured value of its own. -/
def toJson (r : Report) : Json :=
  .object [("phase", .text r.phase), ("error_kind", .text r.title), ("message", .text r.message)]

/-- The report as a part of a larger value, with its members in alphabetical order. -/
def toMember (r : Report) : Json :=
  .object [("error_kind", .text r.title), ("message", .text r.message), ("phase", .text r.phase)]

end Report

end Calculator
