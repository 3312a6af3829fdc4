import Calculator.Proofs.Calculation
import Calculator.Proofs.Conservation
import Calculator.Proofs.Matching
import Calculator.Proofs.Readable
import Calculator.Proofs.Segmentation

/-!
# Faults that no text leads to

Some faults guard against states that the parts of a calculation never hand to each
other. The scanner gives no number that cannot be read; the yard keeps nothing but
operators and opening brackets on its stack, and puts nothing but numerals and operators
into the postfix order. So from a text neither an internal fault arises nor an
evaluation of a token that has no value.

Results:

* `Token.exists_numeral_of_mem`: the numbers that the scanner gives are numerals.
* `Evaluation.evaluate_ne_invalidToken`: a list of readable numbers and operators holds
  no token that the evaluation cannot take.
* `Calculation.fault_of_run`: what a fault of a calculation may come from.
* `Calculation.run_fault_free`: the faults that never arise, and why.
-/

namespace Calculator

namespace Token

/-- Every lexeme of a segmentation is of its kind. -/
theorem Segmented.kind_of_mem {prev : Option Token} {cs : List Char}
    {segments : List (List Char × Token)} (h : Segmented prev cs segments) :
    ∀ g ∈ segments, Numeric g.1 g.2 ∨ Symbolic g.1 g.2 := by
  induction h with
  | blank _ => exact fun _ hg => absurd hg List.not_mem_nil
  | lexeme _ hlexeme _ ih =>
    intro g hg
    rcases List.mem_cons.mp hg with rfl | hg
    · exact hlexeme.kind
    · exact ih g hg

/-- The numbers that the scanner gives are numerals. -/
theorem exists_numeral_of_mem {source text : String} (h : .number text ∈ tokenize source) :
    ∃ n : Numeral, n.text = text := by
  obtain ⟨segments, hsegments, htokens⟩ := exists_segmented_tokenize source
  rw [htokens] at h
  obtain ⟨⟨piece, t⟩, hmem, rfl⟩ := List.mem_map.mp h
  rcases hsegments.kind_of_mem _ hmem with hnumeric | hsymbolic
  · rcases hnumeric.number_or_malformed with ⟨n, _, ht⟩ | ⟨ht, _⟩
    · exact ⟨n, (Token.number.inj ht).symm⟩
    · cases ht
  · cases hsymbolic

theorem mem_numerals {text : String} {ts : List Token} :
    text ∈ numerals ts ↔ .number text ∈ ts := by
  unfold numerals
  rw [List.mem_filterMap]
  constructor
  · rintro ⟨t, ht, htext⟩
    cases t with
    | number s => cases htext; exact ht
    | operator op => cases htext
    | opening b => cases htext
    | closing b => cases htext
    | invalid s => cases htext
  · exact fun h => ⟨_, h, rfl⟩

end Token

namespace Yard

/-- The matcher has no internal fault, so neither has the yard. -/
theorem arrange_ne_internal (ts : List Token) (text : String) :
    arrange ts ≠ .error (.internal text) := by
  rw [Ne, arrange_eq_error_iff, Matching.check_eq_error_iff]
  rintro (⟨before, t, after, now, _, _, hfault⟩ | ⟨a, rest, _, hfault⟩)
  · exact Matching.step_ne_internal now t text hfault
  · cases hfault

end Yard

namespace Evaluation

/-! ## Tokens that the evaluation cannot take -/

theorem step_eq_invalidToken {limit : Option Nat} {stack : Operands} {t : Token} {text : String}
    (h : step limit stack t = .error (.invalidToken text)) :
    (t = .number text ∧ Decimal.read? text = none) ∨ t.hasPlace = false := by
  cases t with
  | number s =>
    rw [step_number, operand] at h
    cases hread : Decimal.read? s with
    | none =>
      rw [hread] at h
      cases h
      exact .inl ⟨rfl, hread⟩
    | some x =>
      rw [hread] at h
      cases limit with
      | none => cases h
      | some most =>
        dsimp only at h
        split at h <;> cases h
  | operator op =>
    cases stack with
    | nil => cases h
    | cons b rest =>
      cases rest with
      | nil => cases h
      | cons a rest =>
        rw [step_operator] at h
        cases happly : op.apply a b with
        | ok x => rw [happly] at h; cases h
        | error e =>
          obtain ⟨_, _, rfl⟩ := Operator.apply_eq_error happly
          rw [happly] at h
          cases h
  | opening b => exact .inr rfl
  | closing b => exact .inr rfl
  | invalid s => exact .inr rfl

theorem result_ne_invalidToken (stack : Operands) (text : String) :
    result stack ≠ .error (.invalidToken text) := by
  intro h
  unfold result at h
  split at h <;> cases h

theorem evaluate_ne_invalidToken {limit : Option Nat} {ts : List Token}
    (hplace : ∀ t ∈ ts, t.hasPlace = true)
    (hread : ∀ text, .number text ∈ ts → Decimal.read? text ≠ none) (text : String) :
    evaluate limit ts ≠ .error (.invalidToken text) := by
  intro h
  rw [evaluate_eq_run] at h
  cases hrun : run limit [] ts with
  | ok stack =>
    rw [hrun] at h
    exact result_ne_invalidToken stack text h
  | error e =>
    rw [hrun] at h
    cases h
    obtain ⟨before, t, after, now, rfl, _, hstep⟩ := (Except.foldlM_eq_error_iff ts []).mp hrun
    have hmem : t ∈ before ++ t :: after := by simp
    rcases step_eq_invalidToken hstep with ⟨rfl, hnone⟩ | hno
    · exact hread text hmem hnone
    · rw [hplace t hmem] at hno
      cases hno

end Evaluation

namespace Calculation

open Token (tokenize)

/-! ## Where faults come from -/

/-- A fault of a calculation is that of the length, of the order or of the evaluation. -/
theorem fault_of_run {options : Options} {source : String} {fault : Fault}
    (h : run options source = .error fault) :
    (∃ length limit, fault = .inputTooLong length limit) ∨
    (∃ e, Yard.arrange (tokenize source) = .error e ∧ fault = .ofOrder e) ∨
    ∃ ordered e, Yard.arrange (tokenize source) = .ok ordered ∧
      Evaluation.evaluate (some options.limits.operands) ordered = .error e ∧ fault = .value e := by
  by_cases hfits : source.length ≤ options.limits.inputLength
  · cases harrange : Yard.arrange (tokenize source) with
    | error e =>
      rw [run_of_arrange_error hfits harrange] at h
      exact .inr (.inl ⟨e, rfl, (Except.error.inj h).symm⟩)
    | ok ordered =>
      rw [run_of_arrange hfits harrange] at h
      cases hvalue : Evaluation.evaluate (some options.limits.operands) ordered with
      | ok x => rw [hvalue] at h; cases h
      | error e =>
        rw [hvalue] at h
        exact .inr (.inr ⟨ordered, e, rfl, hvalue, (Except.error.inj h).symm⟩)
  · rw [run_of_lt_length (Nat.lt_of_not_le hfits)] at h
    exact .inl ⟨_, _, (Except.error.inj h).symm⟩

/-- The evaluation of an arranged text meets no token that it cannot take. -/
theorem evaluate_tokenize_ne_invalidToken {limit : Option Nat} {source : String}
    {ordered : List Token} (h : Yard.arrange (tokenize source) = .ok ordered) (text : String) :
    Evaluation.evaluate limit ordered ≠ .error (.invalidToken text) := by
  refine Evaluation.evaluate_ne_invalidToken (Yard.hasPlace_arrange h) (fun s hs hnone => ?_) text
  rw [← Token.mem_numerals, Yard.numerals_arrange h, Token.mem_numerals] at hs
  obtain ⟨n, rfl⟩ := Token.exists_numeral_of_mem hs
  rw [n.read?_text] at hnone
  cases hnone

/-! ## Faults that never arise -/

/-- **Neither an internal fault nor an unreadable token comes from a text.** No calculation
    ends with an internal fault, its own or one of the order, nor with a token that the
    evaluation cannot take. For every number of a text is read, the texts that are read being
    those of the grammar of numbers, and every postfix order holds numerals and operators
    only. -/
theorem run_fault_free (options : Options) (source : String) :
    (∀ text, run options source ≠ .error (.internal text)) ∧
    (∀ text, run options source ≠ .error (.order (.internal text))) ∧
    (∀ text, run options source ≠ .error (.value (.invalidToken text))) ∧
    (∀ text, .number text ∈ tokenize source → (Decimal.read? text).isSome = true) ∧
    (∀ text, (Decimal.read? text).isSome = true ↔ Decimal.Readable text) ∧
    ∀ ts ordered, Yard.arrange ts = .ok ordered →
      ∀ t ∈ ordered, (∃ text, t = .number text) ∨ ∃ op, t = .operator op := by
  refine ⟨fun text h => ?_, fun text h => ?_, fun text h => ?_, fun text htext => ?_,
    Decimal.read?_isSome_iff, fun ts ordered h t ht => ?_⟩
  · rcases fault_of_run h with ⟨_, _, hfault⟩ | ⟨e, harrange, hfault⟩ | ⟨_, e, _, _, hfault⟩
    · cases hfault
    · cases e with
      | internal s => exact Yard.arrange_ne_internal _ s harrange
      | missingOpening b => cases hfault
      | missingClosing b => cases hfault
      | mismatch a b => cases hfault
      | invalidToken s => cases hfault
    · cases hfault
  · rcases fault_of_run h with ⟨_, _, hfault⟩ | ⟨e, _, hfault⟩ | ⟨_, e, _, _, hfault⟩
    · cases hfault
    · cases e <;> cases hfault
    · cases hfault
  · rcases fault_of_run h with ⟨_, _, hfault⟩ | ⟨e, _, hfault⟩ | ⟨_, e, harrange, hvalue, hfault⟩
    · cases hfault
    · cases e <;> cases hfault
    · cases hfault
      exact evaluate_tokenize_ne_invalidToken harrange text hvalue
  · obtain ⟨n, rfl⟩ := Token.exists_numeral_of_mem htext
    exact n.read?_isSome
  · have hplace := Yard.hasPlace_arrange h t ht
    cases t with
    | number text => exact .inl ⟨text, rfl⟩
    | operator op => exact .inr ⟨op, rfl⟩
    | opening b => cases hplace
    | closing b => cases hplace
    | invalid text => cases hplace

/-- Numbers with a sign, with a point at the end and with one in front. -/
theorem run_fault_free_signs :
    let source := "-1.*[2-.5]"
    let ordered : List Token :=
      [.number "-1.", .number "2", .number ".5", .operator .sub, .operator .mul]
    .number "-1." ∈ tokenize source ∧ (Decimal.read? "-1.").isSome = true ∧
    Decimal.Readable "-1." ∧ Yard.arrange (tokenize source) = .ok ordered ∧
    (∀ t ∈ ordered, (∃ text, t = .number text) ∨ ∃ op, t = .operator op) ∧
    ∀ text, run {} source ≠ .error (.value (.invalidToken text)) := by
  intro source ordered
  have htokens : tokenize source = [.number "-1.", .operator .mul, .opening .square, .number "2",
      .operator .sub, .number ".5", .closing .square] := by decide +kernel
  have hmem : .number "-1." ∈ tokenize source := by rw [htokens]; exact List.mem_cons_self
  have harrange : Yard.arrange (tokenize source) = .ok ordered := by rw [htokens]; rfl
  obtain ⟨_, _, hvalue, hread, hreadable, hordered⟩ := run_fault_free {} source
  exact ⟨hmem, hread _ hmem, (hreadable _).mp (hread _ hmem), harrange,
    hordered _ _ harrange, hvalue⟩

end Calculation

end Calculator
