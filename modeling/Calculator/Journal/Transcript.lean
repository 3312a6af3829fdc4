import Calculator.Journal.Event

/-!
# Transcripts

The events of each phase and of a whole calculation, in the order in which they
happen. A transcript follows the same steps as the phase it tells about and ends
where a fault ends the phase.
-/

namespace Calculator.Transcript

open Calculator.Journal (Event)

/-! ## Reading -/

/-- The events of reading a source into tokens. -/
def reading (source : String) : List Event :=
  let tokens := Token.tokenize source
  .readingStarted source.utf8ByteSize :: tokens.map .tokenRead ++ [.readingFinished tokens.length]

/-! ## Ordering -/

/-- The events of one token's arrival at a stack. -/
def arrival (stack : List Waiting) : Token → List Event
  | .number _ => []
  | .operator op =>
    (Yard.released (Waiting.yieldsTo op) stack).map .released ++
      [.operatorPushed op (stack.dropWhile (Waiting.yieldsTo op)).length]
  | .opening _ => []
  | .closing b =>
    (Yard.released Waiting.isOperator stack).map .released ++
      if (stack.dropWhile Waiting.isOperator).head? = some (.opening b) then [.bracketMatched b]
      else []
  | .invalid text => [.tokenRejected text]

/-- The events of the tokens' arrivals at a yard, and of its end. -/
def arrivals (y : Yard) : List Token → List Event
  | [] =>
    match y.finish with
    | .ok ordered => [.orderingFinished ordered.length]
    | .error _ => []
  | t :: ts =>
    arrival y.stack t ++
      match y.step t with
      | .ok next => arrivals next ts
      | .error _ => []

/-- The events of bringing tokens into postfix order. -/
def ordering (ts : List Token) : List Event :=
  .orderingStarted ts.length :: arrivals {} ts

/-! ## Evaluating -/

/-- The event of an operator that has its operands and a value. -/
def application (stack : Evaluation.Operands) : Token → List Event
  | .operator op =>
    match stack with
    | b :: a :: _ =>
      match op.apply a b with
      | .ok result => [.operatorApplied a op b result]
      | .error _ => []
    | _ => []
  | _ => []

/-- The events of the tokens of a postfix expression, and of its end. -/
def applications (limit : Option Nat) (stack : Evaluation.Operands) : List Token → List Event
  | [] =>
    match Evaluation.result stack with
    | .ok x => [.evaluationFinished x]
    | .error _ => []
  | t :: ts =>
    application stack t ++
      match Evaluation.step limit stack t with
      | .ok next => applications limit next ts
      | .error _ => []

/-- The events of the evaluation of a postfix expression. -/
def evaluating (limit : Option Nat) (ts : List Token) : List Event :=
  .evaluationStarted ts.length :: applications limit [] ts

/-! ## Calculations -/

/-- An event that is told only on demand. -/
def onDemand (wanted : Bool) (event : Event) : List Event := if wanted then [event] else []

/-- The events of reading an expression and bringing its tokens into postfix order. -/
def arranging (options : Options) (source : String) : List Event :=
  match Calculation.checkLength options.limits source with
  | .error _ => [.inputRejected source.length options.limits.inputLength]
  | .ok () =>
    let tokens := Token.tokenize source
    reading source ++ onDemand options.showTokens (.tokensShown (Token.joined tokens)) ++
      ordering tokens ++
      match Yard.arrange tokens with
      | .error _ => []
      | .ok ordered =>
        onDemand options.showPostfix (.postfixShown (Token.joined ordered)) ++
          [.arranged tokens.length ordered.length]

/-- The events of the evaluation of a postfix expression within the limits. -/
def evaluation (options : Options) (ts : List Token) : List Event :=
  evaluating (some options.limits.operands) ts

/-- The events of a calculation. -/
def calculation (options : Options) (source : String) : List Event :=
  .calculationStarted :: arranging options source ++
    match Calculation.arrange options source with
    | .error _ => []
    | .ok arranged =>
      evaluation options arranged.ordered ++
        match Calculation.evaluate options arranged.ordered with
        | .error _ => []
        | .ok x => [.calculationFinished x]

/-- The events of the structured output of a calculation: the tokens of a faulty
expression are read for it once more. -/
def rendering (source : String) : Except Fault Outcome → List Event
  | .ok _ => []
  | .error _ => reading source

end Calculator.Transcript
