import Calculator.Command.Batch
import Calculator.Command.Usage
import Calculator.Settings.Reader

/-!
# The command

From the arguments, the settings file and the input to everything the command
writes and its exit code.
-/

namespace Calculator.Command

/-- What is found at a file's name. -/
inductive Contents where
  | absent
  | directory
  | unreadable (reason : String)
  | bytes (content : List UInt8)

/-- What the command writes, and its exit code: 0, or 1 if something failed, or 2 if
the arguments make no sense. -/
structure Output where
  exit : Nat := 0
  stdout : String := ""
  stderr : String := ""
  deriving DecidableEq

/-! ## Settings -/

/-- The complaint about a settings file that cannot be read. -/
def cannotRead (path reason : String) : String :=
  "error: cannot read '" ++ path ++ "': " ++ reason ++ "\n"

/-- The settings at a file's name, or the complaint about them. -/
def settingsOf (path : String) : Contents → Except String Settings
  | .absent => .error ("error: config file '" ++ path ++ "' not found\n")
  | .directory => .error (cannotRead path "Is a directory (os error 21)")
  | .unreadable reason => .error (cannotRead path reason)
  | .bytes content =>
    match decodeText? content with
    | none => .error (cannotRead path undecodable)
    | some text =>
      match Settings.parse text with
      | .ok settings => .ok settings
      | .error _ => .error ("error: failed to parse '" ++ path ++ "'")

/-- The settings that the arguments ask for: the file's or the defaults, with the
level of the arguments in place of the global one. -/
def loadSettings (files : String → Contents) (a : Arguments) : Except String Settings := do
  let settings ← match a.config with
    | some path => settingsOf path (files path)
    | none => .ok {}
  return match a.level with
    | some level => { settings with journal := { settings.journal with global := level } }
    | none => settings

/-! ## Output -/

/-- Everything that is written under the settings. -/
def Printed.output (p : Printed) (settings : Settings) : Output where
  exit := if p.failed = 0 then 0 else 1
  stdout := unlines p.lines
  stderr := String.join (p.notes.map (Note.text settings.journal))

/-- What the arguments' expression prints, or the lines of the input if there is none. -/
def evaluate (a : Arguments) (limits : Limits) (input : List UInt8) : Printed :=
  match a.expression with
  | some source => evaluateOne a limits source
  | none => evaluateInput a limits input

/-- Does what the arguments ask for. -/
def perform (files : String → Contents) (input : List UInt8) (a : Arguments) : Output :=
  match loadSettings files a with
  | .error complaint => { exit := 1, stderr := complaint }
  | .ok settings =>
    let loaded : Printed := { notes := [.event (.settingsLoaded settings)] }
    (loaded ++ evaluate a settings.limits input).output settings

/-- Runs the command. -/
def run (files : String → Contents) (input : List UInt8) (arguments : List String) : Output :=
  match Arguments.parse arguments with
  | .ok a => perform files input a
  | .error (.misuse m) => { exit := 2, stderr := complaint m }
  | .error .help => { stdout := helpText }
  | .error .version => { stdout := versionText }

end Calculator.Command
