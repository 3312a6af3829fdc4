import Calculator.Calculation

/-!
# Sessions

A session has one set of options for all its calculations. It is fixed by the
first request that sets or needs it: to set them later is refused, and a request
that needs them before they are set fixes the defaults.

Results:

* `step_fixed`: once fixed, the options stay as they are.
-/

namespace Calculator

/-- The options of a session, once they are fixed. -/
structure Session where
  fixed : Option Options := none
  deriving DecidableEq

namespace Session

/-- What a session is asked. -/
inductive Request where
  /-- To fix the options. -/
  | configure (options : Options)
  /-- For the options. -/
  | options
  /-- Whether the options are fixed. -/
  | isConfigured
  /-- For a calculation. -/
  | calculate (source : String)
  /-- For the value of an expression alone. -/
  | value (source : String)

/-- What a session answers. -/
inductive Reply where
  | accepted
  | refused (options : Options)
  | options (options : Options)
  | configured (yes : Bool)
  | calculated (outcome : Except Fault Outcome)
  | value (x : Except Fault Float)

/-- Whether the options are fixed. -/
def isConfigured (s : Session) : Bool := s.fixed.isSome

/-- The options that are in force for a request that needs them. -/
def current (s : Session) : Options := s.fixed.getD {}

/-- The session after a request that needs the options. -/
def settle (s : Session) : Session := ⟨some s.current⟩

/-- Answers a request. -/
def step (s : Session) : Request → Reply × Session
  | .configure options =>
    if s.isConfigured then (.refused options, s) else (.accepted, ⟨some options⟩)
  | .options => (.options s.current, s.settle)
  | .isConfigured => (.configured s.isConfigured, s)
  | .calculate source => (.calculated (Calculation.run s.current source), s.settle)
  | .value source =>
    (.value ((Calculation.run s.current source).map Outcome.value), s.settle)

/-- Answers requests one after the other; with each reply stands whether the options
are fixed after it. -/
def run (s : Session) : List Request → List (Reply × Bool)
  | [] => []
  | r :: rs =>
    let (reply, next) := s.step r
    (reply, next.isConfigured) :: next.run rs

theorem step_fixed (options : Options) (r : Request) :
    (step ⟨some options⟩ r).2 = ⟨some options⟩ := by
  cases r <;> rfl

theorem settle_fixed (options : Options) : settle ⟨some options⟩ = ⟨some options⟩ := rfl

end Session

end Calculator
