import Calculator.Command

/-!
# The program

Reads what the command needs, runs it and writes its output.
-/

open Calculator.Command

/-- What is found at a file's name. -/
def readContents (path : String) : IO Contents := do
  try
    let content ← IO.FS.readBinFile path
    return .bytes content.toList
  catch
    | .noFileOrDirectory .. => return .absent
    | .inappropriateType .. => return .directory
    | e => return .unreadable (toString e)

/-- The settings file that the arguments name. -/
def settingsFile (arguments : List String) : Option String :=
  match Arguments.parse arguments with
  | .ok a => a.config
  | .error _ => none

/-- Whether the arguments leave the expressions to the input. -/
def wantsInput (arguments : List String) : Bool :=
  match Arguments.parse arguments with
  | .ok a => a.expression.isNone
  | .error _ => false

/-- All bytes of the input. -/
def readInput : IO (List UInt8) := do
  let content ← (← IO.getStdin).readBinToEnd
  return content.toList

def main (arguments : List String) : IO UInt32 := do
  let contents ← match settingsFile arguments with
    | some path => readContents path
    | none => pure .absent
  let input ← if wantsInput arguments then readInput else pure []
  let output := run (fun _ => contents) input arguments
  IO.print output.stdout
  IO.eprint output.stderr
  return output.exit.toUInt32
