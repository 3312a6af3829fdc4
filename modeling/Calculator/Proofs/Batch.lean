import Calculator.Command
import Calculator.Proofs.Lines

/-!
# Batches

Without an expression among its arguments, the command evaluates the lines of its input
one after the other. What it prints is appended line by line, its exit code is the worst
of all lines, and nothing is handed from one line to the next; so once the journal is
silent, what is printed for two inputs is printed for one after the other.

Results:

* `Journal.silent_iff`: the levels under which the journal is silent.
* `stdout_output_append` and its siblings: what is printed one after the other is written
  one after the other.
* `run_batch`: what the command does with an input is what it does with its lines.
* `evaluateAll_counts`: how many lines are evaluated and how many fail.
* `run_lines`: the command on two inputs, on a single line, and its counts.
-/

namespace Calculator

/-! ## A silent journal -/

namespace Journal

/-- Under the settings no event is written. -/
def Silent (s : JournalSettings) : Prop := ∀ e : Event, e.isWritten s = false

/-- No event is as quiet as a warning, and those of the phases are louder than the others. -/
theorem info_le_level (e : Event) : Level.info.loudness ≤ e.level.loudness := by
  cases e with
  | tokenRead t => cases t <;> exact Nat.le_of_ble_eq_true rfl
  | _ => exact Nat.le_of_ble_eq_true rfl

theorem debug_le_level {e : Event} {p : Phase} (h : e.origin = .phase p) :
    Level.debug.loudness ≤ e.level.loudness := by
  cases e with
  | tokenRead t => cases t <;> exact Nat.le_of_ble_eq_true rfl
  | calculationStarted => cases h
  | inputRejected length limit => cases h
  | tokensShown text => cases h
  | postfixShown text => cases h
  | arranged tokens ordered => cases h
  | calculationFinished value => cases h
  | settingsLoaded settings => cases h
  | inputFinished evaluated failed => cases h
  | _ => exact Nat.le_of_ble_eq_true rfl

/-- The journal is silent when its global level is at most that of warnings, and those of the
    phases at most that of information. -/
theorem silent_iff {s : JournalSettings} :
    Silent s ↔ s.global.loudness ≤ Level.warn.loudness ∧
      ∀ p, (s.levelOf p).loudness ≤ Level.info.loudness := by
  have hwritten : ∀ e : Event, e.isWritten s = false ↔
      (threshold s e.origin).loudness < e.level.loudness := by
    intro e
    rw [Event.isWritten, Level.allows, decide_eq_false_iff_not, Nat.not_le]
  constructor
  · intro h
    refine ⟨Nat.le_of_lt_succ ((hwritten (.inputFinished 0 0)).mp (h _)), fun p => ?_⟩
    cases p with
    | reading => exact Nat.le_of_lt_succ ((hwritten (.readingFinished 0)).mp (h _))
    | ordering => exact Nat.le_of_lt_succ ((hwritten (.orderingStarted 0)).mp (h _))
    | evaluating => exact Nat.le_of_lt_succ ((hwritten (.evaluationStarted 0)).mp (h _))
  · rintro ⟨hglobal, hphase⟩ e
    rw [hwritten]
    cases horigin : e.origin with
    | phase p => exact Nat.lt_of_lt_of_le (Nat.lt_succ_of_le (hphase p)) (debug_le_level horigin)
    | calculation => exact Nat.lt_of_lt_of_le (Nat.lt_succ_of_le hglobal) (info_le_level e)
    | command => exact Nat.lt_of_lt_of_le (Nat.lt_succ_of_le hglobal) (info_le_level e)

theorem silent_default : Silent {} :=
  silent_iff.mpr ⟨by decide, fun p => by cases p <;> decide⟩

end Journal

namespace Command

open Journal (Silent)

/-! ## Printing one after the other -/

namespace Printed

section

variable (p q : Printed) (s : Settings)

theorem stdout_output_append :
    ((p ++ q).output s).stdout = (p.output s).stdout ++ (q.output s).stdout := by
  show unlines (p.lines ++ q.lines) = unlines p.lines ++ unlines q.lines
  rw [unlines, List.map_append, String.join_append]
  rfl

theorem stderr_output_append :
    ((p ++ q).output s).stderr = (p.output s).stderr ++ (q.output s).stderr := by
  show String.join ((p.notes ++ q.notes).map _) = _
  rw [List.map_append, String.join_append]
  rfl

/-- The exit code is the worse one. -/
theorem exit_output_append :
    ((p ++ q).output s).exit = max (p.output s).exit (q.output s).exit := by
  show (if p.failed + q.failed = 0 then 0 else 1) =
    max (if p.failed = 0 then 0 else 1) (if q.failed = 0 then 0 else 1)
  by_cases hp : p.failed = 0
  · by_cases hq : q.failed = 0 <;> simp [hp, hq]
  · by_cases hq : q.failed = 0 <;> simp [hp, hq]

theorem exit_output_le : (p.output s).exit ≤ 1 := by
  show (if p.failed = 0 then 0 else 1) ≤ 1
  split <;> decide

end

theorem text_event {s : JournalSettings} (h : Silent s) (e : Journal.Event) :
    Note.text s (.event e) = "" := by
  rw [Note.text, h e]
  rfl

/-- Events leave no trace where the journal is silent. -/
theorem output_event_append {s : Settings} (h : Silent s.journal) (e : Journal.Event)
    (p : Printed) : (({ notes := [.event e] } : Printed) ++ p).output s = p.output s := by
  show ({ exit := if 0 + p.failed = 0 then 0 else 1
          stdout := unlines p.lines
          stderr := String.join (Note.text s.journal (.event e) ::
            p.notes.map (Note.text s.journal)) } : Output) = _
  rw [text_event h, Nat.zero_add, String.join_cons, String.empty_append]
  rfl

theorem output_append_event {s : Settings} (h : Silent s.journal) (e : Journal.Event)
    (p : Printed) : (p ++ ({ notes := [.event e] } : Printed)).output s = p.output s := by
  show ({ exit := if p.failed + 0 = 0 then 0 else 1
          stdout := unlines (p.lines ++ [])
          stderr := String.join ((p.notes ++ [Note.event e]).map (Note.text s.journal)) } : Output) = _
  rw [List.map_append, String.join_append, List.map_singleton, text_event h, String.join_cons,
    String.join_nil, String.append_empty, String.append_empty, List.append_nil]
  rfl

end Printed

/-! ## The command on an input -/

/-- The arguments leave the expressions to the input, the settings they ask for can be had, and
    these keep the journal silent. -/
structure Batched (files : String → Contents) (arguments : List String) (a : Arguments)
    (settings : Settings) : Prop where
  parse : Arguments.parse arguments = .ok a
  expression : a.expression = none
  load : loadSettings files a = .ok settings
  silent : Silent settings.journal

section

variable {files : String → Contents} {arguments : List String} {a : Arguments} {settings : Settings}

/-- What the command does with an input is what it does with its lines. -/
theorem run_batch (h : Batched files arguments a settings) (bytes : List UInt8) :
    run files bytes arguments =
      (evaluateAll a settings.limits (inputLines bytes)).output settings := by
  rw [run, h.parse]
  simp only [perform, h.load]
  rw [Printed.output_event_append h.silent, evaluate, h.expression]
  simp only [evaluateInput]
  rw [Printed.output_append_event h.silent]

theorem evaluateAll_singleton (limits : Limits) (line : List UInt8) :
    evaluateAll a limits [line] = evaluateLine a limits line :=
  Printed.append_empty _

/-- A line of an input by itself. -/
theorem run_line (h : Batched files arguments a settings) {bytes line : List UInt8}
    (hline : line ∈ inputLines bytes) :
    run files (line ++ [10]) arguments = (evaluateLine a settings.limits line).output settings := by
  rw [run_batch h, inputLines_singleton (lineEnd_not_mem_of_mem_inputLines hline),
    evaluateAll_singleton]

/-- The lines are printed one after the other, whatever becomes of each. -/
theorem output_evaluateAll (limits : Limits) (lines : List (List UInt8)) :
    ((evaluateAll a limits lines).output settings).stdout = String.join
      (lines.map fun line => ((evaluateLine a limits line).output settings).stdout) ∧
    ((evaluateAll a limits lines).output settings).stderr = String.join
      (lines.map fun line => ((evaluateLine a limits line).output settings).stderr) := by
  induction lines with
  | nil => exact ⟨rfl, rfl⟩
  | cons line lines ih =>
    have hcons : evaluateAll a limits (line :: lines) =
        evaluateLine a limits line ++ evaluateAll a limits lines := rfl
    rw [hcons, Printed.stdout_output_append, Printed.stderr_output_append, ih.1, ih.2]
    simp

end

/-! ## Counts -/

/-- The expression on a line that holds a text with more than blanks. -/
def expression? (line : List UInt8) : Option String :=
  match decodeText? line with
  | none => none
  | some text => if (Text.trim text).isEmpty then none else some (Text.trim text)

/-- The expressions on the lines, in their order. -/
def expressions (lines : List (List UInt8)) : List String := lines.filterMap expression?

/-- The lines that encode no text. -/
def undecodables (lines : List (List UInt8)) : List (List UInt8) :=
  lines.filter fun line => (decodeText? line).isNone

/-- The expressions whose calculations fail. -/
def failing (options : Options) (sources : List String) : List String :=
  sources.filter fun source => !(Calculation.run options source).isOk

theorem evaluateOne_counts (a : Arguments) (limits : Limits) (source : String) :
    (evaluateOne a limits source).evaluated = 1 ∧
    (evaluateOne a limits source).failed = (failing (a.options limits) [source]).length := by
  have hfailed : (failing (a.options limits) [source]).length =
      if (Calculation.run (a.options limits) source).isOk then 0 else 1 := by
    rw [failing, List.filter_cons]
    cases (Calculation.run (a.options limits) source).isOk <;> rfl
  rw [hfailed]
  unfold evaluateOne
  split <;> exact ⟨rfl, rfl⟩

/-- A line is evaluated if it holds an expression; it fails if it encodes no text, or with its
    expression. -/
theorem evaluateLine_counts (a : Arguments) (limits : Limits) (line : List UInt8) :
    (evaluateLine a limits line).evaluated = (expressions [line]).length ∧
    (evaluateLine a limits line).failed = (undecodables [line]).length +
      (failing (a.options limits) (expressions [line])).length := by
  unfold evaluateLine
  cases hdecode : decodeText? line with
  | none => simp [expressions, expression?, undecodables, failing, hdecode]
  | some text =>
    have hnone : (undecodables [line]).length = 0 := by simp [undecodables, hdecode]
    by_cases hblank : (Text.trim text).isEmpty = true
    · have hexpressions : expressions [line] = [] := by
        simp [expressions, expression?, hdecode, hblank]
      simp only [hblank, if_true, hexpressions, hnone]
      exact ⟨rfl, rfl⟩
    · have hexpressions : expressions [line] = [Text.trim text] := by
        simp [expressions, expression?, hdecode, hblank]
      obtain ⟨hevaluated, hfailed⟩ := evaluateOne_counts a limits (Text.trim text)
      simp only [if_neg hblank, hexpressions, hnone, Nat.zero_add]
      exact ⟨hevaluated, hfailed⟩

/-- All lines, by induction on them. -/
theorem evaluateAll_counts (a : Arguments) (limits : Limits) (lines : List (List UInt8)) :
    (evaluateAll a limits lines).evaluated = (expressions lines).length ∧
    (evaluateAll a limits lines).failed = (undecodables lines).length +
      (failing (a.options limits) (expressions lines)).length := by
  induction lines with
  | nil => exact ⟨rfl, rfl⟩
  | cons line lines ih =>
    obtain ⟨hevaluated, hfailed⟩ := evaluateLine_counts a limits line
    have hexpressions : expressions (line :: lines) = expressions [line] ++ expressions lines :=
      List.filterMap_append (l := [line])
    have hundecodables : undecodables (line :: lines) = undecodables [line] ++ undecodables lines :=
      List.filter_append [line] lines
    have hfailing : failing (a.options limits) (expressions (line :: lines)) =
        failing (a.options limits) (expressions [line]) ++
          failing (a.options limits) (expressions lines) := by
      rw [hexpressions, failing, List.filter_append]
      rfl
    constructor
    · show (evaluateLine a limits line).evaluated + (evaluateAll a limits lines).evaluated = _
      rw [hevaluated, ih.1, hexpressions, List.length_append]
    · show (evaluateLine a limits line).failed + (evaluateAll a limits lines).failed = _
      rw [hfailed, ih.2, hundecodables, hfailing, List.length_append, List.length_append]
      omega

/-! ## Two inputs, and each line by itself -/

/-- **The lines of an input are independent.** Let the arguments name no expression, let their
    settings load and keep the journal silent. Where an input consists of two parts, the first
    of which is empty or ends with a line end, what is written for it is what is written for
    the first and then for the second, and it fails exactly when one of them does. For any
    input, the lines counted as evaluated are those that hold a text with more than blanks, and
    the failed ones are those that encode no text and those with a failing expression; and what
    is written is what is written for each line by itself, so no line changes what another
    prints. A carriage return at the end of a line makes no difference. -/
theorem run_lines {files : String → Contents} {arguments : List String} {a : Arguments}
    {settings : Settings} (h : Batched files arguments a settings) :
    (∀ as bs : List UInt8, as = [] ∨ as.getLast? = some 10 →
      (run files (as ++ bs) arguments).stdout =
        (run files as arguments).stdout ++ (run files bs arguments).stdout ∧
      (run files (as ++ bs) arguments).stderr =
        (run files as arguments).stderr ++ (run files bs arguments).stderr ∧
      ((run files (as ++ bs) arguments).exit = 1 ↔
        (run files as arguments).exit = 1 ∨ (run files bs arguments).exit = 1) ∧
      ((run files (as ++ bs) arguments).exit ≠ 1 → (run files (as ++ bs) arguments).exit = 0)) ∧
    (∀ bytes : List UInt8,
      (evaluateInput a settings.limits bytes).evaluated =
        (expressions (inputLines bytes)).length ∧
      (evaluateInput a settings.limits bytes).failed = (undecodables (inputLines bytes)).length +
        (failing (a.options settings.limits) (expressions (inputLines bytes))).length ∧
      ((run files bytes arguments).exit = 0 ↔ (evaluateInput a settings.limits bytes).failed = 0)) ∧
    (∀ bytes : List UInt8,
      (run files bytes arguments).stdout = String.join
        ((inputLines bytes).map fun line => (run files (line ++ [10]) arguments).stdout) ∧
      (run files bytes arguments).stderr = String.join
        ((inputLines bytes).map fun line => (run files (line ++ [10]) arguments).stderr)) ∧
    ∀ line, evaluateLine a settings.limits (line ++ [13]) = evaluateLine a settings.limits line := by
  refine ⟨fun as bs hcut => ?_, fun bytes => ?_, fun bytes => ?_,
    evaluateLine_return a settings.limits⟩
  · rw [run_batch h, run_batch h, run_batch h, inputLines_append hcut, evaluateAll_append]
    have hexit := Printed.exit_output_append (evaluateAll a settings.limits (inputLines as))
      (evaluateAll a settings.limits (inputLines bs)) settings
    have has := Printed.exit_output_le (evaluateAll a settings.limits (inputLines as)) settings
    have hbs := Printed.exit_output_le (evaluateAll a settings.limits (inputLines bs)) settings
    rw [hexit]
    exact ⟨Printed.stdout_output_append _ _ _, Printed.stderr_output_append _ _ _, by omega,
      by omega⟩
  · obtain ⟨hevaluated, hfailed⟩ := evaluateAll_counts a settings.limits (inputLines bytes)
    have hinput : (evaluateInput a settings.limits bytes).failed =
        (evaluateAll a settings.limits (inputLines bytes)).failed := rfl
    refine ⟨hevaluated, hfailed, ?_⟩
    rw [run_batch h, hinput]
    show (if (evaluateAll a settings.limits (inputLines bytes)).failed = 0 then 0 else 1) = 0 ↔ _
    split <;> simp_all
  · have hstdout : (inputLines bytes).map (fun line => (run files (line ++ [10]) arguments).stdout) =
        (inputLines bytes).map fun line =>
          ((evaluateLine a settings.limits line).output settings).stdout :=
      List.map_congr_left fun line hline => by rw [run_line h hline]
    have hstderr : (inputLines bytes).map (fun line => (run files (line ++ [10]) arguments).stderr) =
        (inputLines bytes).map fun line =>
          ((evaluateLine a settings.limits line).output settings).stderr :=
      List.map_congr_left fun line hline => by rw [run_line h hline]
    rw [hstdout, hstderr, run_batch h]
    exact output_evaluateAll settings.limits (inputLines bytes)

/-- A failing line and one that encodes no text, before a blank line and one without an end. -/
theorem run_lines_mixed :
    let files : String → Contents := fun _ => .absent
    let arguments := ["--postfix", "--format=text"]
    let a : Arguments := { showPostfix := true, format := some .text }
    let as : List UInt8 := [49, 43, 10, 255, 10]
    let bs : List UInt8 := [32, 13, 10, 50]
    Batched files arguments a {} ∧ as.getLast? = some 10 ∧
    inputLines (as ++ bs) = [[49, 43], [255], [32, 13], [50]] ∧
    (run files (as ++ bs) arguments).stdout =
      (run files as arguments).stdout ++ (run files bs arguments).stdout ∧
    (run files (as ++ bs) arguments).stderr =
      (run files as arguments).stderr ++ (run files bs arguments).stderr ∧
    (evaluateInput a {} (as ++ bs)).evaluated = 2 ∧
    (evaluateInput a {} (as ++ bs)).failed = 1 + (failing (a.options {}) ["1+", "2"]).length ∧
    (run files (as ++ bs) arguments).exit ≠ 0 := by
  intro files arguments a as bs
  have h : Batched files arguments a {} := ⟨rfl, rfl, rfl, Journal.silent_default⟩
  have hlines : inputLines (as ++ bs) = [[49, 43], [255], [32, 13], [50]] := by decide +kernel
  have hexpressions : expressions (inputLines (as ++ bs)) = ["1+", "2"] := by
    rw [hlines]
    decide +kernel
  have hundecodables : undecodables (inputLines (as ++ bs)) = [[255]] := by
    rw [hlines]
    decide +kernel
  obtain ⟨hcut, hcounts, _, _⟩ := run_lines h
  obtain ⟨hstdout, hstderr, _, _⟩ := hcut as bs (.inr rfl)
  obtain ⟨hevaluated, hfailed, hexit⟩ := hcounts (as ++ bs)
  rw [hexpressions] at hevaluated hfailed
  rw [hundecodables] at hfailed
  have hpositive : (evaluateInput a {} (as ++ bs)).failed ≠ 0 := by
    rw [hfailed, List.length_singleton]
    omega
  exact ⟨h, rfl, hlines, hstdout, hstderr, hevaluated, hfailed, fun hzero => hpositive (hexit.mp hzero)⟩

end Command

end Calculator
