import Calculator.Proofs.Legibility
import Calculator.Proofs.Rendered

/-!
# Transcripts of calculations that succeed

A journal that traces every part of the program is a faithful account of a calculation. The
events of each phase stand in it as that phase tells them, and by their words the lines of
one kind of event can be picked out. So what is told of a phase is told of the calculation.

Results:

* `filter_calculation`: the events of a phase, among those of the calculation, are the
  transcript of that phase.
* `told_calculation`: so are the lines of a kind of event.
* `calculation_told`: the lines of a calculation that succeeds.
-/

namespace Calculator

open Journal (Event about about_append told told_lines)

namespace Transcript

/-! ## The phases of a calculation -/

section

variable {options : Options} {source : String} {out : Outcome}

/-- The events of one phase of a calculation that succeeds. -/
def ofPhase (options : Options) (source : String) (out : Outcome) : Phase → List Event
  | .reading => reading source
  | .ordering => ordering out.tokens
  | .evaluating => evaluation options out.ordered

theorem origin_arrival (stack : List Waiting) (t : Token) :
    ∀ e ∈ arrival stack t, e.origin = .phase .ordering := by
  intro e he
  cases t with
  | number text => cases he
  | operator op =>
    rw [arrival, List.mem_append, List.mem_map, List.mem_singleton] at he
    rcases he with ⟨_, _, rfl⟩ | rfl <;> rfl
  | opening b => cases he
  | closing b =>
    rw [arrival, List.mem_append, List.mem_map] at he
    rcases he with ⟨_, _, rfl⟩ | he
    · rfl
    · split at he
      · rw [List.mem_singleton.mp he]
        rfl
      · cases he
  | invalid text =>
    rw [List.mem_singleton.mp he]
    rfl

theorem origin_arrivals (ts : List Token) : ∀ y : Yard,
    ∀ e ∈ arrivals y ts, e.origin = .phase .ordering := by
  induction ts with
  | nil =>
    intro y e he
    rw [arrivals] at he
    split at he
    · rw [List.mem_singleton.mp he]
      rfl
    · cases he
  | cons t ts ih =>
    intro y e he
    rw [arrivals, List.mem_append] at he
    rcases he with he | he
    · exact origin_arrival y.stack t e he
    · split at he
      · exact ih _ e he
      · cases he

theorem origin_applications (limit : Option Nat) (ts : List Token) : ∀ stack,
    ∀ e ∈ applications limit stack ts, e.origin = .phase .evaluating := by
  induction ts with
  | nil =>
    intro stack e he
    rw [applications] at he
    split at he
    · rw [List.mem_singleton.mp he]
      rfl
    · cases he
  | cons t ts ih =>
    intro stack e he
    rw [applications, List.mem_append] at he
    rcases he with he | he
    · unfold application at he
      split at he
      · split at he
        · split at he
          · rw [List.mem_singleton.mp he]
            rfl
          · cases he
        · cases he
      · cases he
    · split at he
      · exact ih _ e he
      · cases he

/-- A phase speaks for itself. -/
theorem origin_ofPhase (p : Phase) : ∀ e ∈ ofPhase options source out p, e.origin = .phase p := by
  intro e he
  cases p with
  | reading =>
    rw [ofPhase, reading, List.mem_append, List.mem_cons, List.mem_map, List.mem_singleton] at he
    rcases he with (rfl | ⟨_, _, rfl⟩) | rfl <;> rfl
  | ordering =>
    rcases List.mem_cons.mp he with rfl | he
    · rfl
    · exact origin_arrivals out.tokens {} e he
  | evaluating =>
    rcases List.mem_cons.mp he with rfl | he
    · rfl
    · exact origin_applications _ out.ordered [] e he

/-- A calculation that succeeds is told phase by phase, with a few words of its own between. -/
theorem calculation_of_run (h : Calculation.run options source = .ok out) :
    calculation options source =
      .calculationStarted :: (ofPhase options source out .reading ++
        onDemand options.showTokens (.tokensShown (Token.joined out.tokens)) ++
        ofPhase options source out .ordering ++
        (onDemand options.showPostfix (.postfixShown (Token.joined out.ordered)) ++
          [.arranged out.tokens.length out.ordered.length])) ++
      (ofPhase options source out .evaluating ++ [.calculationFinished out.value]) := by
  obtain ⟨hfits, hordered, hvalue⟩ := Calculation.parts_of_run h
  have htokens := Calculation.tokens_of_run h
  have hlength := Calculation.checkLength_of_le hfits
  have harrange : Calculation.arrange options source = .ok out.toArranged := by
    obtain ⟨arranged, harranged, hrest⟩ := Except.bind_eq_ok_iff.mp h
    obtain ⟨value, _, hout⟩ := Except.bind_eq_ok_iff.mp hrest
    cases hout
    exact harranged
  have hevaluate : Calculation.evaluate options out.ordered = .ok out.value :=
    Except.mapError_eq_ok_iff.mpr hvalue
  rw [calculation, arranging, hlength, harrange]
  simp only [hordered, hevaluate, ofPhase, htokens]

theorem filter_ofPhase (p q : Phase) :
    (ofPhase options source out q).filter (fun e => e.origin = .phase p) =
      if q = p then ofPhase options source out q else [] := by
  split
  next heq =>
    apply List.filter_eq_self.mpr
    intro e he
    rw [origin_ofPhase q e he, heq, decide_eq_true_iff]
  next hne =>
    apply List.filter_eq_nil_iff.mpr
    intro e he horigin
    rw [origin_ofPhase q e he, decide_eq_true_iff] at horigin
    exact hne (Journal.Origin.phase.inj horigin)

theorem filter_onDemand {e : Event} (p : Phase) (wanted : Bool) (he : e.origin = .calculation) :
    (onDemand wanted e).filter (fun e => e.origin = .phase p) = [] := by
  cases wanted with
  | false => rfl
  | true =>
    rw [onDemand, if_pos rfl, List.filter_cons, he]
    rfl

/-- The events of a phase, among those of the calculation, are the transcript of that phase. -/
theorem filter_calculation (h : Calculation.run options source = .ok out) (p : Phase) :
    (calculation options source).filter (fun e => e.origin = .phase p) =
      ofPhase options source out p := by
  have htokens : (Event.tokensShown (Token.joined out.tokens)).origin = .calculation := rfl
  have hpostfix : (Event.postfixShown (Token.joined out.ordered)).origin = .calculation := rfl
  rw [calculation_of_run h]
  simp only [List.filter_cons, List.filter_append, List.filter_nil, filter_ofPhase,
    filter_onDemand p _ htokens, filter_onDemand p _ hpostfix]
  cases p <;> simp [Event.origin]

/-- What the lines of a traced calculation tell of an event of some phase is what the
    transcript of that phase tells. -/
theorem told_calculation {s : JournalSettings} {p : Phase}
    (h : Calculation.run options source = .ok out)
    (hs : ∀ origin, Journal.threshold s origin = .trace) (e' : Event)
    (he' : e'.origin = .phase p) :
    told e'.words (Journal.lines s (calculation options source)) =
      (about e'.words (ofPhase options source out p)).map Event.line := by
  rw [Journal.lines_of_trace hs, told_lines, ← filter_calculation h p, about, about,
    List.filter_filter]
  congr 1
  apply List.filter_congr
  intro e _
  by_cases hwords : e.words = e'.words
  · simp [hwords, Journal.origin_eq_of_words_eq hwords, he']
  · simp [hwords]

end

/-! ## Calculations -/

section

open Journal (producedLine pushedLine matchedLine poppedLine appliedLine)
open Token (operators closings)

variable {options : Options} {source : String} {out : Outcome} {s : JournalSettings}

/-- Tokens that can be ordered are valid. -/
theorem invalid_not_mem {ts ordered : List Token} (h : Yard.arrange ts = .ok ordered)
    (text : String) : .invalid text ∉ ts := by
  intro hmem
  obtain ⟨before, after, rfl⟩ := List.append_of_mem hmem
  obtain ⟨z, hz, _, _⟩ := Yard.exists_run_of_arrange h
  rw [Yard.run_append] at hz
  obtain ⟨y, _, hrest⟩ := Except.bind_eq_ok_iff.mp hz
  cases hrest

theorem arrange_tokens (h : Calculation.run options source = .ok out) :
    Yard.arrange out.tokens = .ok out.ordered := by
  obtain ⟨_, harrange, _⟩ := Calculation.parts_of_run h
  rwa [Calculation.tokens_of_run h]

theorem told_produced (h : Calculation.run options source = .ok out)
    (hs : ∀ origin, Journal.threshold s origin = .trace) :
    told "Produced token" (Journal.lines s (calculation options source)) =
      out.tokens.map producedLine := by
  obtain ⟨_, harrange, _⟩ := Calculation.parts_of_run h
  have htold : told "Produced token" (Journal.lines s (calculation options source)) =
      (about "Produced token" (reading source)).map Event.line :=
    told_calculation h hs (.tokenRead (.number "")) rfl
  rw [htold, about_reading (invalid_not_mem harrange), Calculation.tokens_of_run h, List.map_map]
  apply List.map_congr_left
  intro t _
  exact Journal.line_tokenRead t

theorem told_pushed (h : Calculation.run options source = .ok out)
    (hs : ∀ origin, Journal.threshold s origin = .trace) :
    let pushed := told "Push operator" (Journal.lines s (calculation options source))
    pushed.length = (operators out.tokens).length ∧
      ∀ before op after, out.tokens = before ++ .operator op :: after →
        ∃ y, Yard.run {} before = .ok y ∧ pushed[(operators before).length]? =
          some (pushedLine op (y.release (Waiting.yieldsTo op)).stack.length) := by
  intro pushed
  obtain ⟨z, hz, _, _⟩ := Yard.exists_run_of_arrange (arrange_tokens h)
  have htold : pushed = (about "Push operator" (ordering out.tokens)).map Event.line :=
    told_calculation h hs (.operatorPushed .add 0) rfl
  constructor
  · obtain ⟨events, habout, haccount⟩ := exists_account_ordering hz
    rw [htold, habout _ (by decide) (by decide), List.length_map, haccount.pushed]
  · intro before op after hsplit
    rw [hsplit, Yard.run_append] at hz
    obtain ⟨y, hy, _⟩ := Except.bind_eq_ok_iff.mp hz
    obtain ⟨events, hevents, haccount⟩ := exists_account before hy
    have hordering : about "Push operator" (ordering out.tokens) =
        about "Push operator" (arrivals {} out.tokens) := rfl
    refine ⟨y, hy, ?_⟩
    rw [htold, hordering, hsplit, hevents, arrivals, about_append, about_append,
      about_arrival_operator, ← haccount.pushed, List.getElem?_map,
      List.getElem?_append_right (Nat.le_refl _), Nat.sub_self, List.singleton_append,
      List.getElem?_cons_zero, Option.map_some, Journal.line_operatorPushed]
    rfl

theorem told_matched (h : Calculation.run options source = .ok out)
    (hs : ∀ origin, Journal.threshold s origin = .trace) :
    told "Matched bracket" (Journal.lines s (calculation options source)) =
      (closings out.tokens).map matchedLine := by
  obtain ⟨z, hz, _, _⟩ := Yard.exists_run_of_arrange (arrange_tokens h)
  obtain ⟨events, habout, haccount⟩ := exists_account_ordering hz
  have htold : told "Matched bracket" (Journal.lines s (calculation options source)) =
      (about "Matched bracket" (ordering out.tokens)).map Event.line :=
    told_calculation h hs (.bracketMatched .round) rfl
  rw [htold, habout _ (by decide) (by decide), haccount.matched, List.map_map]
  apply List.map_congr_left
  intro b _
  exact Journal.line_bracketMatched b

/-- What is told is what came to the output before the end. -/
theorem told_popped (h : Calculation.run options source = .ok out)
    (hs : ∀ origin, Journal.threshold s origin = .trace) :
    ∃ ops : List Operator,
      told "Pop to output" (Journal.lines s (calculation options source)) =
        ops.map poppedLine ∧
      ops <+: operators out.ordered := by
  obtain ⟨z, hz, hordered, _⟩ := Yard.exists_run_of_arrange (arrange_tokens h)
  obtain ⟨events, habout, haccount⟩ := exists_account_ordering hz
  obtain ⟨ops, hops, houtput⟩ := haccount.popped
  have htold : told "Pop to output" (Journal.lines s (calculation options source)) =
      (about "Pop to output" (ordering out.tokens)).map Event.line :=
    told_calculation h hs (.released (.operator .add)) rfl
  refine ⟨ops, ?_, ?_⟩
  · rw [htold, habout _ (by decide) (by decide), hops, List.map_map]
    apply List.map_congr_left
    intro op _
    exact Journal.line_released op
  · have hstart : operators ({} : Yard).output.toList = [] := rfl
    rw [hordered, Yard.toList_output_release, Token.operators_append, houtput, hstart,
      List.nil_append]
    exact List.prefix_append _ _

theorem told_applied (h : Calculation.run options source = .ok out)
    (hs : ∀ origin, Journal.threshold s origin = .trace) :
    ∃ (t : Tree String) (steps : List Application),
      t.postorder = out.ordered ∧ t.Applies steps out.value ∧
      told "Applied operator" (Journal.lines s (calculation options source)) =
        steps.map appliedLine := by
  obtain ⟨_, _, hvalue⟩ := Calculation.parts_of_run h
  obtain ⟨t, hordered, ht⟩ := Evaluation.exists_tree_of_evaluate hvalue
  obtain ⟨steps, hsteps, habout⟩ := about_evaluation ht
  have htold : told "Applied operator" (Journal.lines s (calculation options source)) =
      (about "Applied operator" (evaluation options out.ordered)).map Event.line :=
    told_calculation h hs (.operatorApplied 0 .add 0 0) rfl
  refine ⟨t, steps, hordered, hsteps, ?_⟩
  rw [htold, ← hordered, habout, List.map_map]
  apply List.map_congr_left
  intro x _
  exact Journal.line_event x

/-- A token of a calculation that succeeds is read back from its line. -/
theorem eq_of_producedLine (h : Calculation.run options source = .ok out) {t u : Token}
    (ht : t ∈ out.tokens) (hline : producedLine u = producedLine t) : u = t := by
  apply Journal.producedLine_inj _ hline
  rintro text rfl
  exact invalid_not_mem (arrange_tokens h) text ht

end

/-- **The transcript of a calculation that succeeds.** Let every part of the program be traced.
    The lines about tokens are the tokens of the source, in their order. There is one line for
    each operator among them that is put on the stack, at its place among the operators, with
    the number of what waits below it once the operators that yield to it are released; and one
    for each closing bracket, in their order. The operators that leave the stack on the arrival
    of a token are the first ones of the postfix order. The applications are the operators of the
    postfix order, each with the values of its left and its right operand, and the last of them
    results in the value of the calculation. All that a line says can be read back from it: no
    other token, operator, number, bracket or double is written with the same line. -/
theorem calculation_told {options : Options} {source : String} {out : Outcome}
    {s : JournalSettings} (h : Calculation.run options source = .ok out)
    (hs : ∀ origin, Journal.threshold s origin = .trace) :
    let lines := Journal.lines s (calculation options source)
    (told "Produced token" lines = out.tokens.map Journal.producedLine ∧
      ∀ t ∈ out.tokens, ∀ u, Journal.producedLine u = Journal.producedLine t → u = t) ∧
    ((told "Push operator" lines).length = (Token.operators out.tokens).length ∧
      (∀ before op after, out.tokens = before ++ .operator op :: after →
        ∃ y, Yard.run {} before = .ok y ∧
          (told "Push operator" lines)[(Token.operators before).length]? =
            some (Journal.pushedLine op (y.release (Waiting.yieldsTo op)).stack.length)) ∧
      Function.Injective2 Journal.pushedLine) ∧
    (told "Matched bracket" lines = (Token.closings out.tokens).map Journal.matchedLine ∧
      Function.Injective Journal.matchedLine) ∧
    ((∃ ops, told "Pop to output" lines = ops.map Journal.poppedLine ∧
        ops <+: Token.operators out.ordered) ∧
      Function.Injective Journal.poppedLine) ∧
    (∃ (t : Tree String) (steps : List Application),
      t.postorder = out.ordered ∧ t.Applies steps out.value ∧
      told "Applied operator" lines = steps.map Journal.appliedLine ∧
      steps.map Application.op = Token.operators out.ordered ∧
      ∀ last ∈ steps.getLast?, last.result = out.value) ∧
    Function.Injective Journal.appliedLine := by
  intro lines
  obtain ⟨hlength, hdepth⟩ := told_pushed h hs
  obtain ⟨t, steps, hordered, hsteps, happlied⟩ := told_applied h hs
  have hops : steps.map Application.op = Token.operators out.ordered := by
    rw [← hordered]
    exact hsteps.map_op
  refine ⟨⟨told_produced h hs, fun t ht u => eq_of_producedLine h ht⟩,
    ⟨hlength, hdepth, Journal.pushedLine_injective⟩,
    ⟨told_matched h hs, Journal.matchedLine_injective⟩,
    ⟨told_popped h hs, Journal.poppedLine_injective⟩, ?_, Journal.appliedLine_injective⟩
  exact ⟨t, steps, hordered, hsteps, happlied, hops, hsteps.result_getLast⟩

/-- A sum in brackets, a product with it and a difference: the sum has a bracket below it, and
    the difference is released at the end only. -/
theorem calculation_told_difference :
    let source := "(1+2)*3-4"
    let s : JournalSettings := { global := .trace }
    let lines := Journal.lines s (calculation {} source)
    ∃ out, Calculation.run {} source = .ok out ∧ (∀ origin, Journal.threshold s origin = .trace) ∧
      (told "Produced token" lines).take 2 =
        ["TRACE shunt::lexer: Produced token kind=LeftParenRound text=(",
          "TRACE shunt::lexer: Produced token kind=Number text=1"] ∧
      (told "Push operator" lines).length = 3 ∧
      (told "Push operator" lines)[0]? =
        some "TRACE shunt::translator: Push operator op=+ depth=1" ∧
      (told "Push operator" lines)[2]? =
        some "TRACE shunt::translator: Push operator op=- depth=0" ∧
      told "Matched bracket" lines = ["TRACE shunt::translator: Matched bracket bracket=)"] ∧
      (∃ ops, told "Pop to output" lines = ops.map Journal.poppedLine ∧
        ops <+: [.add, .mul, .sub]) ∧
      ∃ steps : List Application,
        told "Applied operator" lines = steps.map Journal.appliedLine ∧
        steps.map Application.op = [.add, .mul, .sub] ∧
        ∀ last ∈ steps.getLast?, last.result = out.value := by
  intro source s lines
  have hs : ∀ origin, Journal.threshold s origin = .trace := by
    intro origin
    cases origin with
    | phase p => cases p <;> rfl
    | calculation => rfl
    | command => rfl
  have htokens : Token.tokenize source = [.opening .round, .number "1", .operator .add,
      .number "2", .closing .round, .operator .mul, .number "3", .operator .sub, .number "4"] := by
    decide +kernel
  have hordered : Yard.arrange (Token.tokenize source) =
      .ok (Tree.node .sub (.node .mul (.node .add (.leaf "1") (.leaf "2")) (.leaf "3"))
        (.leaf "4")).postorder := by
    rw [htokens]
    rfl
  have hfits : source.length ≤ ({} : Options).limits.inputLength := by decide
  have hrun : ∃ out, Calculation.run {} source = .ok out := by
    rw [Calculation.run_of_arrange hfits hordered, Evaluation.evaluate_postorder]
    exact ⟨_, rfl⟩
  obtain ⟨out, hout⟩ := hrun
  have harrange := arrange_tokens hout
  rw [Calculation.tokens_of_run hout, hordered] at harrange
  obtain ⟨⟨hproduced, _⟩, ⟨hlength, hdepth, _⟩, ⟨hmatched, _⟩, ⟨hpopped, _⟩,
    ⟨_, steps, _, _, happlied, hops, hlast⟩, _⟩ := calculation_told hout hs
  rw [Calculation.tokens_of_run hout, htokens] at hproduced hlength hdepth hmatched
  rw [← Except.ok.inj harrange] at hpopped hops
  obtain ⟨y, hy, hfirst⟩ := hdepth [.opening .round, .number "1"] .add _ rfl
  obtain ⟨z, hz, hthird⟩ := hdepth [.opening .round, .number "1", .operator .add, .number "2",
    .closing .round, .operator .mul, .number "3"] .sub _ rfl
  cases hy
  cases hz
  have hsum : Journal.pushedLine .add 1 =
      "TRACE shunt::translator: Push operator op=+ depth=1" := by decide
  have hdifference : Journal.pushedLine .sub 0 =
      "TRACE shunt::translator: Push operator op=- depth=0" := by decide
  refine ⟨out, hout, hs, ?_, hlength, hfirst.trans (congrArg some hsum),
    hthird.trans (congrArg some hdifference), hmatched, hpopped, steps, happlied, hops, hlast⟩
  rw [hproduced]
  decide

end Transcript

end Calculator
