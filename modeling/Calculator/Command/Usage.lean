import Calculator.Command.Arguments
import Calculator.Text.Terminal

/-!
# Texts of the command line

What is written when the arguments ask for no calculation: the help text, the
version, or the complaint about a misuse.
-/

namespace Calculator.Command

/-- The name of the command and its version. -/
def versionText : String := "shunt 0.1.0\n"

/-- The lines of the help text. -/
def helpLines : List String :=
  ["Evaluate arithmetic expressions with the shunting-yard algorithm",
   "",
   "Usage: shunt [OPTIONS] [EXPRESSION]",
   "",
   "Arguments:",
   "  [EXPRESSION]  Expression to evaluate (reads lines from stdin when omitted)",
   "",
   "Options:",
   "      --config <FILE>      JSON configuration file",
   "      --tokens             Print the token list",
   "      --postfix            Print the postfix expression",
   "      --format <FORMAT>    Output format [default: text] [possible values: text, json]",
   "      --log-level <LEVEL>  Global log level: silent, error, warn, info, debug, trace",
   "  -h, --help               Print help",
   "  -V, --version            Print version"]

/-- Lines, each with its end. -/
def unlines (lines : List String) : String := String.join (lines.map (· ++ "\n"))

/-- The help text. -/
def helpText : String := unlines helpLines

/-! ## Complaints -/

/-- The wording of a misuse as a list of spans, every second of which is
highlighted. -/
def Misuse.spans : Misuse → List String
  | unexpectedArgument argument => ["unexpected argument '", argument, "' found"]
  | unexpectedValue value name =>
    ["unexpected value '", value, "' for '", name.usage, "' found; no more were expected"]
  | repeated name => ["the argument '", name.usage, "' cannot be used multiple times"]
  | missingValue p => ["a value is required for '", p.usage, "' but none was supplied"]
  | invalidFormat value => ["invalid value '", value, "' for '", Parameter.format.usage, "'"]
  | invalidLevel value =>
    ["invalid value '", value, "' for '", Parameter.level.usage,
     "': " ++ Journal.Level.unknownName value]

/-- The spans of the hint that follows a complaint on a line of its own. -/
def hintSpans : List String := ["\n\nFor more information, try '", "--help", "'.\n"]

/-- Spans one after the other; the last of the first and the first of the second are one. -/
def joinSpans : List String → List String → List String
  | [], second => second
  | [last], start :: second => (last ++ start) :: second
  | [last], [] => [last]
  | span :: spans, second => span :: joinSpans spans second

/-- The first line of a text, without a carriage return at its end. -/
def firstLine (cs : List Char) : List Char :=
  let line := cs.takeWhile (· != '\n')
  if line.getLast? = some '\r' then line.dropLast else line

/-- The complaint about a misuse: the first line of its wording and the hint. Control
sequences in the arguments are left out. The highlighting between two spans ends any
sequence, so each span is made plain by itself; within a span, an unfinished sequence
takes with it what follows. -/
def complaint (m : Misuse) : String :=
  let text := String.join ((joinSpans m.spans hintSpans).map Text.plain)
  "error: " ++ String.ofList (firstLine text.toList)

end Calculator.Command
