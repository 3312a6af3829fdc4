import Calculator.Proofs.Arguments
import Calculator.Proofs.Batch
import Calculator.Proofs.Faults

/-!
# An expression as an argument

An expression may be given behind the options or on a line of the input. Both come to the
same evaluation, so the command writes the same for both, unless the expression looks like
a name: a dash at its front makes the argument a name, which is never evaluated, while the
line is. A double dash in front of the expression removes the difference.

Results:

* `run_eq_run_line`: the command evaluates its expression as it evaluates a line.
* `exists_run_ne`: what looks like a name is not evaluated.
* `run_signed_argument`: a signed number behind the options is an unexpected argument.
* `run_argument`: the two ways agree exactly when the expression does not look like a name.
-/

namespace Calculator

/-! ## A dash that begins no number -/

/-- A dash at the start is a sign, so it makes a malformed number if no number follows. -/
theorem Token.tokenize_dash {source : String} {c : Char} {cs : List Char}
    (h : source.toList = '-' :: c :: cs) (hdigit : c.isDigit = false) (hpoint : c ≠ '.') :
    ∃ ts, tokenize source = .invalid malformedNumber :: ts := by
  have hmagnitude : splitMagnitude (c :: cs) = ([], c :: cs) := by
    refine splitMagnitude_eq_nil fun d hd => ?_
    cases hd
    exact ⟨hdigit, hpoint⟩
  have hcut : splitNumeral ('-' :: c :: cs) = (['-'], c :: cs) := by
    rw [splitNumeral, hmagnitude]
  have hlexeme : lexeme true '-' (c :: cs) = (.invalid malformedNumber, c :: cs) :=
    lexeme_of_splitNumeral (by decide) hcut
  rw [tokenize, h, scan, if_neg (by decide), hlexeme]
  exact ⟨_, rfl⟩

/-- A text goes on as it begins. -/
theorem Text.getElem?_append {s : String} {n : Nat} {c : Char} (h : s.toList[n]? = some c)
    (t : String) : (s ++ t).toList[n]? = some c := by
  rw [String.toList_append, List.getElem?_append, if_pos (List.getElem?_eq_some_iff.mp h).1, h]

/-- Such a source has no value. -/
theorem Calculation.run_dash (options : Options) {source : String} {c : Char} {cs : List Char}
    (h : source.toList = '-' :: c :: cs) (hdigit : c.isDigit = false) (hpoint : c ≠ '.') :
    ∃ fault, run options source = .error fault ∧ fault.message.toList[0]? = some 'I' := by
  by_cases hfits : source.length ≤ options.limits.inputLength
  · obtain ⟨ts, hts⟩ := Token.tokenize_dash h hdigit hpoint
    have harrange : Yard.arrange (Token.tokenize source) =
        .error (.invalidToken Token.malformedNumber) := by
      rw [Yard.arrange_eq_error_iff, hts]
      rfl
    exact ⟨_, run_of_arrange_error hfits harrange, by decide⟩
  · exact ⟨_, run_of_lt_length (Nat.lt_of_not_le hfits), Text.getElem?_append
      (Text.getElem?_append (Text.getElem?_append (by decide) _) _) _⟩

namespace Command

open Journal (Silent)

/-! ## Texts on a line, and options alone -/

/-- The text is an expression as it stands on a line: it is not empty, it ends no line, and
    it has no blanks around it. -/
structure OnLine (text : String) : Prop where
  ne_empty : text ≠ ""
  single : '\n' ∉ text.toList
  first : ∀ c ∈ text.toList.head?, Text.isBlank c = false
  last : ∀ c ∈ text.toList.getLast?, Text.isBlank c = false

/-- The text of a first and a last character with others between them. -/
theorem OnLine.ofEnds {text : String} {c d : Char} (hfirst : text.toList.head? = some c)
    (hlast : text.toList.getLast? = some d) (hc : Text.isBlank c = false)
    (hd : Text.isBlank d = false) (hsingle : '\n' ∉ text.toList) : OnLine text where
  ne_empty := by
    rintro rfl
    cases hfirst
  single := hsingle
  first := by
    rintro x hx
    rw [hfirst] at hx
    cases hx
    exact hc
  last := by
    rintro x hx
    rw [hlast] at hx
    cases hx
    exact hd

theorem OnLine.trim_eq {text : String} (h : OnLine text) : Text.trim text = text := by
  rw [Text.trim, Text.trimChars_eq_self h.first h.last, String.ofList_toList]

theorem OnLine.evaluateLine_eq {text : String} (h : OnLine text) (a : Arguments)
    (limits : Limits) : evaluateLine a limits (encodeText text) = evaluateOne a limits text := by
  have hempty : ¬text.isEmpty = true := by
    rw [String.isEmpty_iff]
    exact h.ne_empty
  rw [evaluateLine, decodeText?_encodeText]
  simp only [h.trim_eq, if_neg hempty]

/-- The arguments are options and no expression, and the settings they ask for, if they can be
    had, keep the journal silent. -/
structure OptionsOnly (files : String → Contents) (options : List String) (a : Arguments) :
    Prop where
  parse : Arguments.parse options = .ok a
  expression : a.expression = none
  silent : ∀ settings, loadSettings files a = .ok settings → Silent settings.journal

section

variable {files : String → Contents} {options : List String} {a : Arguments}
  {settings : Settings} {text : String}

theorem OptionsOnly.batched (h : OptionsOnly files options a)
    (hload : loadSettings files a = .ok settings) : Batched files options a settings :=
  ⟨h.parse, h.expression, hload, h.silent settings hload⟩

/-! ## The two ways -/

theorem run_of_load_error {arguments : List String} {complaint : String}
    (hparse : Arguments.parse arguments = .ok a) (hload : loadSettings files a = .error complaint)
    (input : List UInt8) :
    run files input arguments = { exit := 1, stderr := complaint } := by
  rw [run, hparse]
  simp only [perform, hload]

/-- The text on a line of its own. -/
theorem run_text (h : Batched files options a settings) (ht : OnLine text) :
    run files (encodeText (text ++ "\n")) options =
      (evaluateOne a settings.limits text).output settings := by
  have hline : encodeText (text ++ "\n") = encodeText text ++ [10] := encodeText_append text "\n"
  rw [run_batch h, hline, inputLines_singleton (lineEnd_not_mem_encodeText ht.single),
    evaluateAll_singleton, ht.evaluateLine_eq]

/-- The command evaluates its expression as it evaluates a line, whatever the input is. -/
theorem run_eq_run_line (h : OptionsOnly files options a) (ht : OnLine text)
    {arguments : List String}
    (hparse : Arguments.parse arguments = .ok { a with expression := some text })
    (input : List UInt8) :
    run files input arguments = run files (encodeText (text ++ "\n")) options := by
  cases hload : loadSettings files a with
  | error complaint => rw [run_of_load_error hparse hload, run_of_load_error h.parse hload]
  | ok settings =>
    have hload' : loadSettings files { a with expression := some text } = .ok settings := hload
    rw [run_text (h.batched hload) ht, run, hparse]
    simp only [perform, hload']
    exact Printed.output_event_append (h.silent settings hload) _ _

/-! ## What looks like a name -/

/-- In the text format, the notes are events and then the complaint. -/
theorem notes_evaluateOne (hformat : a.format ≠ some .json) (limits : Limits) (text : String) :
    ∃ events : List Journal.Event, (evaluateOne a limits text).notes =
      events.map .event ++ faultNotes (Calculation.run (a.options limits) text) := by
  refine ⟨Transcript.calculation (a.options limits) text ++
    if a.showTokens then Transcript.reading text else [], ?_⟩
  have hagain : (if a.showTokens then Transcript.reading text else []).map Note.event =
      if a.showTokens then (Transcript.reading text).map Note.event else [] := by
    split <;> rfl
  rw [List.map_append, hagain, evaluateOne]
  cases hf : a.format with
  | none => rfl
  | some format =>
    cases format with
    | text => rfl
    | json => exact absurd hf hformat

theorem join_events (hs : Silent settings.journal) (events : List Journal.Event) :
    String.join ((events.map Note.event).map (Note.text settings.journal)) = "" := by
  induction events with
  | nil => rfl
  | cons e events ih =>
    rw [List.map_cons, List.map_cons, String.join_cons, Printed.text_event hs, ih]
    rfl

/-- With the journal silent, a failing expression leaves its complaint alone. -/
theorem stderr_evaluateOne {limits : Limits} {fault : Fault} (hs : Silent settings.journal)
    (hformat : a.format ≠ some .json)
    (hfault : Calculation.run (a.options limits) text = .error fault) :
    ((evaluateOne a limits text).output settings).stderr = "error: " ++ fault.message ++ "\n" := by
  obtain ⟨events, hnotes⟩ := notes_evaluateOne hformat limits text
  show String.join ((evaluateOne a limits text).notes.map _) = _
  rw [hnotes, hfault, List.map_append, String.join_append, join_events hs, String.empty_append]
  rw [faultNotes, List.map_singleton, String.join_cons, String.join_nil, String.append_empty]
  rfl

/-- In the structured format, every expression leaves a line. -/
theorem stdout_evaluateOne_ne (hformat : a.format = some .json) (limits : Limits) (text : String) :
    ((evaluateOne a limits text).output settings).stdout ≠ "" := by
  have hlines : (evaluateOne a limits text).lines =
      [Rendering.line text (Calculation.run (a.options limits) text)] := by
    rw [evaluateOne, hformat]
  intro h
  have hlength := congrArg String.length h
  rw [Printed.output, hlines, unlines, List.map_singleton, String.join_cons] at hlength
  simp at hlength

/-- An expression fails exactly when its calculation does. -/
theorem exit_evaluateOne (a : Arguments) (limits : Limits) (settings : Settings) (text : String) :
    ((evaluateOne a limits text).output settings).exit =
      if (Calculation.run (a.options limits) text).isOk then 0 else 1 := by
  rw [Printed.output, (evaluateOne_counts a limits text).2, failing, List.filter_cons]
  cases (Calculation.run (a.options limits) text).isOk <;> rfl

/-- A complaint about the settings begins in lower case. -/
theorem getElem?_complaint {complaint : String} (h : loadSettings files a = .error complaint) :
    complaint.toList[7]? = some 'c' ∨ complaint.toList[7]? = some 'f' := by
  have hread : ∀ path reason, (cannotRead path reason).toList[7]? = some 'c' := fun _ _ =>
    Text.getElem?_append (Text.getElem?_append (Text.getElem?_append
      (Text.getElem?_append (by decide) _) _) _) _
  have hsettings : ∀ path contents, settingsOf path contents = .error complaint →
      complaint.toList[7]? = some 'c' ∨ complaint.toList[7]? = some 'f' := by
    intro path contents hpath
    unfold settingsOf at hpath
    split at hpath
    · cases hpath
      exact .inl (Text.getElem?_append (Text.getElem?_append (by decide) _) _)
    · cases hpath
      exact .inl (hread _ _)
    · cases hpath
      exact .inl (hread _ _)
    · split at hpath
      · cases hpath
        exact .inl (hread _ _)
      · split at hpath
        · cases hpath
        · cases hpath
          exact .inr (Text.getElem?_append (Text.getElem?_append (by decide) _) _)
  unfold loadSettings at h
  cases hconfig : a.config with
  | none =>
    rw [hconfig] at h
    cases h
  | some path =>
    rw [hconfig] at h
    cases hpath : settingsOf path (files path) with
    | error e =>
      simp only [hpath] at h
      cases h
      exact hsettings path _ hpath
    | ok settings =>
      simp only [hpath] at h
      cases h

/-- What a failing expression prints is no complaint about the settings. -/
theorem output_evaluateOne_ne {limits : Limits} {fault : Fault} {b : Arguments}
    {complaint : String} (hs : Silent settings.journal)
    (hfault : Calculation.run (a.options limits) text = .error fault)
    (hmessage : fault.message.toList[0]? = some 'I')
    (hload : loadSettings files b = .error complaint) :
    (evaluateOne a limits text).output settings ≠ { exit := 1, stderr := complaint } := by
  intro heq
  by_cases hformat : a.format = some .json
  · exact stdout_evaluateOne_ne hformat limits text (congrArg Output.stdout heq)
  · have hstderr : complaint = "error: " ++ fault.message ++ "\n" :=
      (congrArg Output.stderr heq).symm.trans (stderr_evaluateOne hs hformat hfault)
    have hupper : complaint.toList[7]? = some 'I' := by
      rw [hstderr]
      refine Text.getElem?_append ?_ "\n"
      rw [String.toList_append, List.getElem?_append_right (by decide)]
      exact hmessage
    rcases getElem?_complaint hload with hlower | hlower
    · rw [hlower] at hupper
      cases hupper
    · rw [hlower] at hupper
      cases hupper

/-- A signed number behind the options is taken for a name that is not known. -/
theorem run_signed_argument {c : Char} {cs : List Char}
    (hparse : Arguments.parse options = .ok a) (hnone : "--" ∉ options)
    (hchars : text.toList = '-' :: c :: cs) (hnumber : c.isDigit = true ∨ c = '.')
    (input : List UInt8) :
    run files input (options ++ [text]) =
      { exit := 2, stderr := complaint (.unexpectedArgument ("-" ++ c.toString)) } := by
  have hdash : c ≠ '-' := by
    rintro rfl
    revert hnumber
    decide
  have hname : Name.ofShort? c = none := by
    unfold Name.ofShort?
    split
    · revert hnumber
      decide
    · revert hnumber
      decide
    · rfl
  rw [run, Arguments.parse_append_unknown hparse hnone hchars hdash hname]

/-- What looks like a name is not evaluated, and the line that reads the same is. -/
theorem exists_run_ne (h : OptionsOnly files options a)
    (hload : loadSettings files a = .ok settings) (ht : OnLine text) (hhyphen : Hyphenated text)
    (hnone : "--" ∉ options) :
    ∃ input, run files input (options ++ [text]) ≠
      run files (encodeText (text ++ "\n")) options := by
  have hline := run_text (h.batched hload) ht
  obtain ⟨c, cs, hchars⟩ := hhyphen
  refine ⟨[], fun heq => ?_⟩
  by_cases hnumber : c.isDigit = true ∨ c = '.'
  · have hexit := Printed.exit_output_le (evaluateOne a settings.limits text) settings
    rw [← hline, ← heq, run_signed_argument h.parse hnone hchars hnumber] at hexit
    exact absurd hexit (Nat.not_succ_le_self 1)
  · obtain ⟨hdigit, hpoint⟩ := not_or.mp hnumber
    obtain ⟨fault, hfault, hmessage⟩ := Calculation.run_dash (a.options settings.limits) hchars
      (Bool.not_eq_true _ ▸ hdigit) hpoint
    have hexit : (run files [] (options ++ [text])).exit = 1 := by
      rw [heq, hline, exit_evaluateOne, hfault]
      rfl
    -- the exit code tells the two apart, unless the name asks for settings that cannot be had
    cases hparse : Arguments.parse (options ++ [text]) with
    | error stop =>
      rw [run, hparse] at hexit
      cases stop <;> cases hexit
    | ok b =>
      have hexpression : b.expression = none :=
        (Arguments.parse_append_hyphenated h.parse hnone ⟨c, cs, hchars⟩ hparse).trans h.expression
      cases hb : loadSettings files b with
      | error complaint =>
        refine output_evaluateOne_ne (h.silent settings hload) hfault hmessage hb ?_
        rw [← hline, ← heq, run_of_load_error hparse hb]
      | ok settings' =>
        rw [run, hparse] at hexit
        simp only [perform, hb, evaluate, hexpression] at hexit
        cases hexit

end

/-! ## When the two ways agree -/

/-- **An expression as an argument.** Let the arguments be options that ask for no journal
    lines, and let the text be one that stands on a line as it is. Then the command with the
    text behind the options writes what it writes, and exits as it exits, with the options
    alone and the text and a line end as its input: if the text does not look like a name, or
    a double dash is among the options; and, where the settings can be had, in no other case.
    A double dash in front of the text makes the two agree for every text. A signed number
    without it is complained about and not evaluated. -/
theorem run_argument {files : String → Contents} {options : List String} {a : Arguments}
    {text : String} (h : OptionsOnly files options a) (ht : OnLine text) :
    ((Hyphenated text → "--" ∈ options) → ∀ input,
      run files input (options ++ [text]) = run files (encodeText (text ++ "\n")) options) ∧
    (∀ settings, loadSettings files a = .ok settings →
      (∀ input,
        run files input (options ++ [text]) = run files (encodeText (text ++ "\n")) options) →
      Hyphenated text → "--" ∈ options) ∧
    ("--" ∉ options → ∀ input,
      run files input (options ++ ["--", text]) =
        run files (encodeText (text ++ "\n")) options) ∧
    (∀ c cs, "--" ∉ options → text.toList = '-' :: c :: cs → c.isDigit = true ∨ c = '.' →
      ∀ input, run files input (options ++ [text]) =
        { exit := 2, stderr := complaint (.unexpectedArgument ("-" ++ c.toString)) }) := by
  refine ⟨fun hname => ?_, fun settings hload hagree hhyphen => ?_, fun hnone => ?_,
    fun c cs hnone hchars hnumber => ?_⟩
  · exact run_eq_run_line h ht (Arguments.parse_append_expression h.parse h.expression hname)
  · refine Decidable.byContradiction fun hnone => ?_
    obtain ⟨input, hne⟩ := exists_run_ne h hload ht hhyphen hnone
    exact hne (hagree input)
  · have hseparator := Arguments.parse_append_separator h.parse hnone
    have hparse : Arguments.parse (options ++ ["--"] ++ [text]) =
        .ok { a with expression := some text } :=
      Arguments.parse_append_expression hseparator h.expression
        fun _ => List.mem_append_right _ (List.mem_singleton_self _)
    rw [List.append_assoc] at hparse
    exact run_eq_run_line h ht hparse
  · exact run_signed_argument h.parse hnone hchars hnumber

/-- The two ways agree on `8-1`; on `-7` they differ, unless a double dash stands in front. -/
theorem run_argument_signed :
    let files : String → Contents := fun _ => .absent
    let options := ["--postfix", "--format", "json"]
    let line := fun text : String => encodeText (text ++ "\n")
    (∀ input, run files input (options ++ ["8-1"]) = run files (line "8-1") options) ∧
    (¬∀ input, run files input (options ++ ["-7"]) = run files (line "-7") options) ∧
    (∀ input, run files input (options ++ ["--", "-7"]) = run files (line "-7") options) ∧
    ∀ input, run files input (options ++ ["-7"]) =
      { exit := 2, stderr := complaint (.unexpectedArgument "-7") } := by
  intro files options line
  have hsilent : ∀ settings, loadSettings files { showPostfix := true, format := some .json } =
      .ok settings → Silent settings.journal := by
    intro settings hload
    cases hload
    exact Journal.silent_default
  have h : OptionsOnly files options { showPostfix := true, format := some .json } :=
    ⟨rfl, rfl, hsilent⟩
  have hnone : "--" ∉ options := by decide
  have hdifference : OnLine "8-1" := .ofEnds rfl rfl (by decide) (by decide) (by decide)
  have hsigned : OnLine "-7" := .ofEnds rfl rfl (by decide) (by decide) (by decide)
  obtain ⟨hagree, -, -, -⟩ := run_argument h hdifference
  obtain ⟨-, honly, hseparated, hunknown⟩ := run_argument h hsigned
  refine ⟨hagree ?_, fun hall => ?_, hseparated hnone, hunknown '7' [] hnone rfl (.inl rfl)⟩
  · rintro ⟨c, cs, hchars⟩
    cases hchars
  · exact hnone (honly {} rfl hall ⟨'7', [], rfl⟩)

/-- A number with a sign is an expression: as a line it is evaluated, as an argument refused. -/
theorem run_minus_seven :
    let files : String → Contents := fun _ => .absent
    OptionsOnly files [] {} ∧ OnLine "-7" ∧
    (run files [] ["-7"]).exit = 2 ∧ (run files (encodeText ("-7" ++ "\n")) []).exit = 0 := by
  intro files
  have h : OptionsOnly files [] {} := by
    refine ⟨rfl, rfl, fun settings hload => ?_⟩
    cases hload
    exact Journal.silent_default
  have ht : OnLine "-7" := .ofEnds rfl rfl (by decide) (by decide) (by decide)
  have hscan : Token.scan true ['-', '7'] = .number "-7" :: Token.scan false [] :=
    Token.scan_number (n := ⟨true, ['7'], none, by decide, by decide⟩)
      (fun c hc => nomatch hc) fun _ => rfl
  have htokens : Token.tokenize "-7" = [.number "-7"] := by
    show Token.scan true ['-', '7'] = _
    rw [hscan, Token.scan]
  have harrange : Yard.arrange (Token.tokenize "-7") = .ok (Tree.leaf "-7").postorder := by
    rw [htokens]
    rfl
  have hrun : (Calculation.run {} "-7").isOk = true := by
    rw [Calculation.run_of_arrange (by decide) harrange, Evaluation.evaluate_postorder]
    rfl
  refine ⟨h, ht, rfl, ?_⟩
  have hoptions : Arguments.options {} {} = {} := rfl
  rw [run_text (h.batched rfl) ht, exit_evaluateOne, hoptions, hrun]
  rfl

end Command

end Calculator
