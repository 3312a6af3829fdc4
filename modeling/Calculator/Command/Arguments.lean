import Calculator.Journal.Level

/-!
# Command line arguments

Arguments are taken from left to right. A parameter has a value, attached with an
equals sign or as the next argument; a switch has none; after a lone double dash
everything is an expression. The value of a parameter that came as an argument of
its own is judged when the next known name, an expression or the end of the line
is reached, so that a name that is not known is complained about before it.
-/

namespace Calculator.Command

open Calculator.Journal (Level)

/-- How results are written. -/
inductive Format where
  | text
  | json
  deriving DecidableEq

/-- The format of a name. -/
def Format.ofName? : String → Option Format
  | "text" => some text
  | "json" => some json
  | _ => none

/-! ## Names -/

/-- A name with a value. -/
inductive Parameter where
  | config
  | format
  | level
  deriving DecidableEq

/-- A name without a value that changes what is shown. -/
inductive Switch where
  | tokens
  | ordered
  deriving DecidableEq

/-- A name that may follow a dash. -/
inductive Name where
  | parameter (p : Parameter)
  | switch (s : Switch)
  | help
  | version
  deriving DecidableEq

/-- How a parameter is called in complaints. -/
def Parameter.usage : Parameter → String
  | config => "--config <FILE>"
  | format => "--format <FORMAT>"
  | level => "--log-level <LEVEL>"

/-- How a switch is called in complaints. -/
def Switch.usage : Switch → String
  | tokens => "--tokens"
  | ordered => "--postfix"

namespace Name

/-- How a name is called in complaints. -/
def usage : Name → String
  | parameter p => p.usage
  | switch s => s.usage
  | help => "--help"
  | version => "--version"

/-- The name after two dashes. -/
def ofLong? : String → Option Name
  | "config" => some (parameter .config)
  | "format" => some (parameter .format)
  | "log-level" => some (parameter .level)
  | "tokens" => some (switch .tokens)
  | "postfix" => some (switch .ordered)
  | "help" => some help
  | "version" => some version
  | _ => none

/-- The name after one dash. -/
def ofShort? : Char → Option Name
  | 'h' => some help
  | 'V' => some version
  | _ => none

end Name

/-! ## Words -/

/-- What an argument looks like. -/
inductive Word where
  | separator
  | long (name : String) (value : Option String)
  | short (letter : Char)
  | plain (text : String)
  deriving DecidableEq

/-- A text up to its first equals sign, and what follows the sign. -/
def splitValue (cs : List Char) : List Char × Option (List Char) :=
  match cs.dropWhile (· != '=') with
  | [] => (cs, none)
  | _ :: value => (cs.takeWhile (· != '='), some value)

/-- What an argument looks like. A lone dash is plain, and after one dash only the
first letter counts. -/
def Word.ofArgument (argument : String) : Word :=
  match argument.toList with
  | ['-', '-'] => separator
  | '-' :: '-' :: cs =>
    let (name, value) := splitValue cs
    long (String.ofList name) (value.map String.ofList)
  | '-' :: letter :: _ => short letter
  | _ => plain argument

/-! ## Outcomes -/

/-- What the arguments ask for. -/
structure Arguments where
  expression : Option String := none
  config : Option String := none
  showTokens : Bool := false
  showPostfix : Bool := false
  format : Option Format := none
  level : Option Level := none
  deriving DecidableEq

/-- What is wrong with an argument. -/
inductive Misuse where
  | unexpectedArgument (argument : String)
  | unexpectedValue (value : String) (name : Name)
  | repeated (name : Name)
  | missingValue (p : Parameter)
  | invalidFormat (value : String)
  | invalidLevel (value : String)
  deriving DecidableEq

/-- Why the arguments ask for no calculation. -/
inductive Stop where
  | misuse (m : Misuse)
  | help
  | version
  deriving DecidableEq

/-! ## Taking arguments -/

/-- The arguments so far, the parameter whose value is still to be judged or to
come, and whether a double dash was passed. -/
structure Progress where
  found : Arguments := {}
  pending : Option (Parameter × Option String) := none
  trailing : Bool := false
  deriving DecidableEq

namespace Arguments

/-- Sets the settings file; the empty name is none. -/
def setConfig (a : Arguments) (value : String) : Except Misuse Arguments :=
  if a.config.isSome then .error (.repeated (.parameter .config))
  else if value.isEmpty then .error (.missingValue .config)
  else .ok { a with config := some value }

/-- Sets the format; the empty name is none. -/
def setFormat (a : Arguments) (value : String) : Except Misuse Arguments :=
  if a.format.isSome then .error (.repeated (.parameter .format))
  else if value.isEmpty then .error (.missingValue .format)
  else
    match Format.ofName? value with
    | some format => .ok { a with format := some format }
    | none => .error (.invalidFormat value)

/-- Sets the level of the journal. -/
def setLevel (a : Arguments) (value : String) : Except Misuse Arguments :=
  if a.level.isSome then .error (.repeated (.parameter .level))
  else
    match Level.ofAnyCase? value with
    | some level => .ok { a with level := some level }
    | none => .error (.invalidLevel value)

/-- Sets a parameter, which may be set only once. -/
def set (a : Arguments) : Parameter → String → Except Misuse Arguments
  | .config, value => a.setConfig value
  | .format, value => a.setFormat value
  | .level, value => a.setLevel value

/-- Turns a switch on, which may be done only once. -/
def turnOn (a : Arguments) : Switch → Except Misuse Arguments
  | .tokens =>
    if a.showTokens then .error (.repeated (.switch .tokens)) else .ok { a with showTokens := true }
  | .ordered =>
    if a.showPostfix then .error (.repeated (.switch .ordered))
    else .ok { a with showPostfix := true }

end Arguments

namespace Progress

/-- Judges the pending value. -/
def settle (p : Progress) : Except Misuse Progress :=
  match p.pending with
  | none => .ok p
  | some (parameter, none) => .error (.missingValue parameter)
  | some (parameter, some value) => do
    let found ← p.found.set parameter value
    return { p with found, pending := none }

/-- Takes an expression; there is at most one. -/
def takeExpression (p : Progress) (argument : String) : Except Misuse Progress :=
  if p.found.expression.isSome then
    .error (.unexpectedArgument argument)
  else do
    let settled ← p.settle
    return { settled with found := { settled.found with expression := some argument } }

/-- Takes a plain argument: the value that a parameter waits for, or the expression. -/
def takePlain (p : Progress) (argument : String) : Except Misuse Progress :=
  match p.pending with
  | some (parameter, none) => .ok { p with pending := some (parameter, some argument) }
  | _ => p.takeExpression argument

/-- Takes a known name without an attached value. -/
def takeName (p : Progress) (name : Name) : Except Stop Progress := do
  let settled ← p.settle.mapError Stop.misuse
  match name with
  | .parameter parameter => return { settled with pending := some (parameter, none) }
  | .switch s =>
    let found ← (settled.found.turnOn s).mapError Stop.misuse
    return { settled with found }
  | .help => throw .help
  | .version => throw .version

/-- Takes a known name with an attached value, which only parameters have. -/
def takeAttached (p : Progress) (name : Name) (value : String) : Except Misuse Progress :=
  match name with
  | .parameter parameter => do
    let settled ← p.settle
    let found ← settled.found.set parameter value
    return { settled with found }
  | name => .error (.unexpectedValue value name)

/-- Takes an argument. -/
def take (p : Progress) (argument : String) : Except Stop Progress :=
  if p.trailing then
    (p.takeExpression argument).mapError Stop.misuse
  else
    match Word.ofArgument argument with
    | .separator => .ok { p with trailing := true }
    | .long name value =>
      match Name.ofLong? name, value with
      | none, _ => .error (.misuse (.unexpectedArgument ("--" ++ name)))
      | some known, none => p.takeName known
      | some known, some value => (p.takeAttached known value).mapError Stop.misuse
    | .short letter =>
      match Name.ofShort? letter with
      | none => .error (.misuse (.unexpectedArgument ("-" ++ letter.toString)))
      | some known => p.takeName known
    | .plain argument => (p.takePlain argument).mapError Stop.misuse

end Progress

/-- What the arguments ask for. -/
def Arguments.parse (arguments : List String) : Except Stop Arguments := do
  let progress ← arguments.foldlM Progress.take {}
  let settled ← progress.settle.mapError Stop.misuse
  return settled.found

end Calculator.Command
