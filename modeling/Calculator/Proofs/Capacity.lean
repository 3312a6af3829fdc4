import Calculator.Proofs.Faults
import Calculator.Proofs.Heights

/-!
# How many operands a text can hold

Two numerals that stand side by side need a character more than themselves: a blank or a
symbol between them, or a point, with which the second one begins. So a text of `n`
characters has no more than half of `n + 1` numerals, and no more operands than that ever
wait. Ones with single blanks between them reach this bound.

Results:

* `Token.length_numerals_tokenize`: the bound on the numerals of a text.
* `Calculation.length_of_run_overflow`: a text that overflows is long.
* `Calculation.run_ones`: a text of ones that overflows any given limit.
* `Calculation.exists_overflow_iff`: for which limits there is a text that overflows.
-/

namespace Calculator

namespace Token

open Text (isBlank)

/-! ## Numerals in a text -/

/-- A numeral that begins with no digit has a sign or a point as well as a digit. -/
theorem two_le_length_of_head? {n : Numeral} (h : ∀ c ∈ n.chars.head?, c.isDigit = false) :
    2 ≤ n.chars.length := by
  obtain ⟨d, hmem, hd⟩ := List.any_eq_true.mp n.any_isDigit
  match hchars : n.chars with
  | [] => rw [hchars] at hmem; cases hmem
  | [c] =>
    rw [hchars] at hmem h
    rw [List.mem_singleton.mp hmem, h c rfl] at hd
    cases hd
  | c :: c' :: cs => simp

/-- The text from any place on, and a text that goes on with no digit, as after a numeral;
    by induction on the segmentation. -/
theorem Segmented.length_numerals {prev : Option Token} {cs : List Char}
    {segments : List (List Char × Token)} (h : Segmented prev cs segments) :
    2 * (numerals (segments.map Prod.snd)).length ≤ cs.length + 1 ∧
    ((∀ c ∈ cs.head?, c.isDigit = false) →
      2 * (numerals (segments.map Prod.snd)).length ≤ cs.length) := by
  induction h with
  | blank _ => simp
  | @lexeme prev t blanks piece rest segments hblank hlexeme _ ih =>
    have hpiece := List.length_pos_iff.mpr hlexeme.ne_nil
    have hnone : (∀ text, t ≠ .number text) → numerals ((t :: segments.map Prod.snd)) =
        numerals (segments.map Prod.snd) := by
      intro hnumber
      cases t with
      | number text => exact absurd rfl (hnumber text)
      | operator op => rfl
      | opening b => rfl
      | closing b => rfl
      | invalid text => rfl
    rw [List.map_cons, List.length_append, List.length_append]
    rcases hlexeme.kind with hnumeric | hsymbolic
    · rcases hnumeric.number_or_malformed with ⟨n, rfl, rfl⟩ | ⟨rfl, _⟩
      · have hrest := ih.2 fun c hc => (hlexeme.munch hnumeric c hc).1
        rw [numerals_number, List.length_cons]
        refine ⟨by omega, fun hhead => ?_⟩
        cases blanks with
        | cons b blanks => rw [List.length_cons]; omega
        | nil =>
          have hlong : 2 ≤ n.chars.length := two_le_length_of_head? fun c hc => hhead c (by
            rw [List.nil_append, List.head?_append, Option.mem_def.mp hc]
            rfl)
          omega
      · rw [hnone nofun]
        omega
    · rw [hnone (by cases hsymbolic <;> nofun)]
      omega

theorem length_numerals_tokenize (source : String) :
    2 * (numerals (tokenize source)).length ≤ source.length + 1 := by
  obtain ⟨segments, hsegments, htokens⟩ := exists_segmented_tokenize source
  rw [htokens, ← String.length_toList]
  exact hsegments.length_numerals.1

/-! ## Ones -/

/-- The numeral one. -/
def one : Numeral := ⟨false, ['1'], none, rfl, by decide⟩

/-- A one, and so many others after it, each behind a blank. -/
def ones : Nat → List Char
  | 0 => ['1']
  | count + 1 => '1' :: ' ' :: ones count

theorem length_ones (count : Nat) : (ones count).length = 2 * count + 1 := by
  induction count with
  | zero => rfl
  | succ count ih => rw [ones, List.length_cons, List.length_cons, ih]; omega

theorem scan_ones (count : Nat) : ∀ signed,
    scan signed (ones count) = List.replicate (count + 1) (.number "1") := by
  induction count with
  | zero =>
    intro signed
    have hscan : scan signed (one.chars ++ []) = .number one.text :: scan false [] :=
      scan_number nofun nofun
    rw [scan] at hscan
    exact hscan
  | succ count ih =>
    intro signed
    have hends : one.EndsAt (' ' :: ones count) := by
      intro c hc
      cases hc
      exact ⟨rfl, by decide⟩
    have hscan : scan signed (one.chars ++ ' ' :: ones count) =
        .number one.text :: scan false (' ' :: ones count) := scan_number hends nofun
    have hspace : [' '].all isBlank = true := rfl
    have hblank : scan false (' ' :: ones count) = scan false (ones count) :=
      scan_blanks hspace false (ones count)
    rw [hblank, ih] at hscan
    exact hscan

end Token

namespace Yard

/-- Numerals alone pass through. -/
theorem run_replicate (text : String) (count : Nat) : ∀ y : Yard,
    y.run (List.replicate count (.number text)) =
      .ok { y with output := y.output ++ List.replicate count (Token.number text) } := by
  induction count with
  | zero => intro y; simp
  | succ count ih =>
    intro y
    have hstep : y.step (.number text) = .ok { y with output := y.output.push (.number text) } := rfl
    rw [List.replicate_succ, run_cons, hstep, Except.ok_bind, ih]
    simp

theorem arrange_replicate (text : String) (count : Nat) :
    arrange (List.replicate count (.number text)) = .ok (List.replicate count (.number text)) := by
  rw [arrange_eq, run_replicate, Except.ok_bind]
  simp [finish, release, released]

end Yard

namespace Evaluation

open Token (numerals)

/-- One numeral more than the limit overflows it. -/
theorem overflows_replicate {text : String} (h : (Decimal.read? text).isSome = true) (most : Nat) :
    Overflows most (List.replicate (most + 1) (.number text)) := by
  refine ⟨List.replicate most (.number text), .number text, [], ?_, ?_, text, rfl, h, ?_⟩
  · rw [List.replicate_succ']
  · rintro before t after e hts hstops
    have hmem : t ∈ List.replicate most (Token.number text) ++ [.number text] := by rw [hts]; simp
    rw [← List.replicate_succ'] at hmem
    obtain rfl := List.eq_of_mem_replicate hmem
    cases hstops with
    | stray hplace => cases hplace
    | unreadable hread => rw [hread] at h; cases h
  · have hnumerals : numerals (List.replicate most (.number text)) = List.replicate most text :=
      List.filterMap_replicate_of_some rfl
    have hoperators : Token.operators (List.replicate most (.number text)) = [] :=
      List.filterMap_replicate_of_none rfl
    rw [height, hnumerals, hoperators, List.length_replicate, List.length_nil]
    omega

end Evaluation

namespace Calculation

open Token (numerals tokenize ones)

/-! ## Limits -/

/-- A text that overflows has more numerals than may wait, so it is long. -/
theorem length_of_run_overflow {options : Options} {source : String} {most : Nat}
    (h : run options source = .error (.value (.stackOverflow most))) :
    source.length ≤ options.limits.inputLength ∧
      2 * options.limits.operands + 1 ≤ source.length := by
  have hfits : source.length ≤ options.limits.inputLength := by
    refine Nat.le_of_not_lt fun hlong => ?_
    rw [run_of_lt_length hlong] at h
    cases h
  refine ⟨hfits, ?_⟩
  rcases fault_of_run h with ⟨_, _, hfault⟩ | ⟨e, _, hfault⟩ | ⟨ordered, e, harrange, hvalue, hfault⟩
  · cases hfault
  · cases e <;> cases hfault
  · cases hfault
    have hover : Evaluation.Overflows options.limits.operands ordered := by
      refine Classical.byContradiction fun hnot => ?_
      rw [Evaluation.evaluate_of_not_overflows hnot] at hvalue
      exact Evaluation.evaluate_none_ne_stackOverflow _ _ hvalue
    have hcount := hover.lt_length_numerals
    rw [Yard.numerals_arrange harrange] at hcount
    have hlength := Token.length_numerals_tokenize source
    omega

/-- One one more than may wait. -/
theorem run_ones {options : Options}
    (h : 2 * options.limits.operands + 1 ≤ options.limits.inputLength) :
    run options (String.ofList (ones options.limits.operands)) =
      .error (.value (.stackOverflow options.limits.operands)) := by
  have hfits : (String.ofList (ones options.limits.operands)).length ≤ options.limits.inputLength := by
    rw [String.length_ofList, Token.length_ones]
    exact h
  have htokens : tokenize (String.ofList (ones options.limits.operands)) =
      List.replicate (options.limits.operands + 1) (.number "1") := by
    rw [tokenize, String.toList_ofList, Token.scan_ones]
  have harrange := Yard.arrange_replicate "1" (options.limits.operands + 1)
  rw [← htokens] at harrange
  rw [run_of_arrange hfits harrange, htokens,
    Evaluation.evaluate_of_overflows (Evaluation.overflows_replicate rfl _)]
  rfl

/-- **How the two limits relate.** Some text overflows exactly when fewer operands may wait
    than half of the characters that a text may have, rounded up; and no text overflows if
    half of its own characters, rounded up, may wait. -/
theorem exists_overflow_iff (options : Options) :
    ((∃ source most, run options source = .error (.value (.stackOverflow most))) ↔
      options.limits.operands < (options.limits.inputLength + 1) / 2) ∧
    ∀ source, (source.length + 1) / 2 ≤ options.limits.operands →
      ∀ most, run options source ≠ .error (.value (.stackOverflow most)) := by
  refine ⟨⟨?_, fun h => ?_⟩, fun source hroom most h => ?_⟩
  · rintro ⟨source, most, h⟩
    obtain ⟨hfits, hlong⟩ := length_of_run_overflow h
    omega
  · exact ⟨_, _, run_ones (by omega)⟩
  · obtain ⟨_, hlong⟩ := length_of_run_overflow h
    omega

/-- Five characters have room for three operands that wait, and for no more. -/
theorem exists_overflow_iff_five :
    let tight : Options := { limits := ⟨5, 2⟩ }
    let roomy : Options := { limits := ⟨5, 3⟩ }
    (∃ source most, run tight source = .error (.value (.stackOverflow most))) ∧
    (¬ ∃ source most, run roomy source = .error (.value (.stackOverflow most))) ∧
    ("1 2 3".length + 1) / 2 ≤ roomy.limits.operands ∧
    ∀ most, run roomy "1 2 3" ≠ .error (.value (.stackOverflow most)) := by
  intro tight roomy
  have hroom : ("1 2 3".length + 1) / 2 ≤ roomy.limits.operands := by decide
  exact ⟨(exists_overflow_iff tight).1.mpr (by decide),
    fun h => absurd ((exists_overflow_iff roomy).1.mp h) (by decide), hroom,
    (exists_overflow_iff roomy).2 "1 2 3" hroom⟩

end Calculation

end Calculator
