import Calculator.Proofs.Calculation
import Calculator.Proofs.Conservation
import Calculator.Proofs.Matching

/-!
# Bracket families

The families of brackets decide which bracket may close which, and nothing else. The
scanner treats the brackets of both alike, a minus sign after either opening bracket
being a sign. The yard looks at a family only where a closing bracket meets an opening
one; so once the brackets match, any renaming of the families that leaves them matching
leaves the postfix order as it is. Exchanging the families never parts a pair nor joins
one, so it exchanges them in the faults too.

Results:

* `Token.tokenize_exchange`: exchanging the families in a text exchanges them in its
  tokens.
* `Yard.arrange_rename`: a postfix order outlasts every renaming of the families.
* `Yard.arrange_swapBracket`: exchanging the families exchanges them in the fault.
* `Calculation.run_exchange`: the same for whole calculations, and the postfix order
  without regard to families.
-/

namespace Calculator

/-! ## Families in texts and tokens -/

namespace Bracket

/-- The character with its family exchanged, if it is a bracket. -/
def exchange (c : Char) : Char :=
  match c with
  | '(' => '['
  | '[' => '('
  | ')' => ']'
  | ']' => ')'
  | c => c

/-- A character is a bracket of one kind or the other, or it stays as it is. -/
theorem exchange_cases (c : Char) :
    (∃ b : Bracket, c = b.opener ∧ exchange c = b.swap.opener) ∨
    (∃ b : Bracket, c = b.closer ∧ exchange c = b.swap.closer) ∨
    (exchange c = c ∧ ∀ b : Bracket, c ≠ b.opener ∧ c ≠ b.closer) := by
  unfold exchange
  split
  · exact .inl ⟨.round, rfl, rfl⟩
  · exact .inl ⟨.square, rfl, rfl⟩
  · exact .inr (.inl ⟨.round, rfl, rfl⟩)
  · exact .inr (.inl ⟨.square, rfl, rfl⟩)
  · next hround hsquare hround' hsquare' =>
    refine .inr (.inr ⟨rfl, fun b => ?_⟩)
    cases b with
    | round => exact ⟨hround, hround'⟩
    | square => exact ⟨hsquare, hsquare'⟩

/-- What is alike for all brackets does not see the exchange. -/
theorem apply_exchange {α : Type} {p : Char → α} {x : α}
    (h : ∀ b : Bracket, p b.opener = x ∧ p b.closer = x) (c : Char) : p (exchange c) = p c := by
  rcases exchange_cases c with ⟨b, rfl, hc⟩ | ⟨b, rfl, hc⟩ | ⟨hc, _⟩
  · rw [hc, (h b.swap).1, (h b).1]
  · rw [hc, (h b.swap).2, (h b).2]
  · rw [hc]

theorem isDigit_exchange (c : Char) : (exchange c).isDigit = c.isDigit :=
  apply_exchange (x := false) (fun b => by cases b <;> decide) c

theorem isBlank_exchange (c : Char) : Text.isBlank (exchange c) = Text.isBlank c :=
  apply_exchange (x := false) (fun b => by cases b <;> decide) c

theorem exchange_of_isDigit {c : Char} (h : c.isDigit = true) : exchange c = c := by
  rcases exchange_cases c with ⟨b, rfl, _⟩ | ⟨b, rfl, _⟩ | ⟨hc, _⟩
  · cases b <;> exact absurd h (by decide)
  · cases b <;> exact absurd h (by decide)
  · exact hc

/-- No other character becomes one that is no bracket. -/
theorem exchange_eq_iff {c d : Char} (hd : ∀ b : Bracket, d ≠ b.opener ∧ d ≠ b.closer) :
    exchange c = d ↔ c = d := by
  rcases exchange_cases c with ⟨b, rfl, hc⟩ | ⟨b, rfl, hc⟩ | ⟨hc, _⟩
  · rw [hc]
    exact ⟨fun h => absurd h.symm (hd _).1, fun h => absurd h.symm (hd _).1⟩
  · rw [hc]
    exact ⟨fun h => absurd h.symm (hd _).2, fun h => absurd h.symm (hd _).2⟩
  · rw [hc]

end Bracket

namespace Token

open Calculator.Bracket (exchange)

/-- The token with its bracket family renamed, if it is a bracket. -/
def rename (f : Bracket → Bracket) : Token → Token
  | opening b => opening (f b)
  | closing b => closing (f b)
  | t => t

/-- The token with its bracket family forgotten, if it is a bracket: all brackets count as
    round ones. -/
def forgetFamily : Token → Token := rename fun _ => .round

theorem swapBracket_eq_rename : swapBracket = rename Bracket.swap := by
  funext t
  cases t <;> rfl

theorem wantsOperand_swapBracket (t : Token) : t.swapBracket.wantsOperand = t.wantsOperand := by
  cases t <;> rfl

/-! ## Reading the exchanged text -/

theorem takeWhile_exchange (cs : List Char) :
    (cs.map exchange).takeWhile Char.isDigit = cs.takeWhile Char.isDigit := by
  have hsame : Char.isDigit ∘ exchange = Char.isDigit := funext Bracket.isDigit_exchange
  have hfixed : ∀ c ∈ cs.takeWhile Char.isDigit, exchange c = id c := fun c hc =>
    Bracket.exchange_of_isDigit (List.all_eq_true.mp List.all_takeWhile c hc)
  rw [List.takeWhile_map, hsame, List.map_congr_left hfixed, List.map_id]

theorem dropWhile_exchange (cs : List Char) :
    (cs.map exchange).dropWhile Char.isDigit = (cs.dropWhile Char.isDigit).map exchange := by
  have hsame : Char.isDigit ∘ exchange = Char.isDigit := funext Bracket.isDigit_exchange
  rw [List.dropWhile_map, hsame]

/-- No bracket stands in a number, so the exchange concerns the text after it alone. -/
theorem splitMagnitude_exchange (cs : List Char) :
    splitMagnitude (cs.map exchange) = ((splitMagnitude cs).1, (splitMagnitude cs).2.map exchange) := by
  have hpoint : ∀ b : Bracket, '.' ≠ b.opener ∧ '.' ≠ b.closer := fun b => by cases b <;> decide
  unfold splitMagnitude
  rw [takeWhile_exchange, dropWhile_exchange]
  cases cs.dropWhile Char.isDigit with
  | nil => rfl
  | cons c rest =>
    by_cases hc : c = '.'
    · subst hc
      show (_ ++ '.' :: (rest.map exchange).takeWhile Char.isDigit,
        (rest.map exchange).dropWhile Char.isDigit) = _
      rw [takeWhile_exchange, dropWhile_exchange]
      rfl
    · have hc' : exchange c ≠ '.' := fun h => hc ((Bracket.exchange_eq_iff hpoint).mp h)
      rw [List.map_cons]
      split
      · next h => exact absurd (List.cons.inj h).1 hc'
      · split
        · next h => exact absurd (List.cons.inj h).1 hc
        · rfl

theorem splitNumeral_exchange (cs : List Char) :
    splitNumeral (cs.map exchange) = ((splitNumeral cs).1, (splitNumeral cs).2.map exchange) := by
  have hminus : ∀ b : Bracket, '-' ≠ b.opener ∧ '-' ≠ b.closer := fun b => by cases b <;> decide
  cases cs with
  | nil => rfl
  | cons c cs =>
    by_cases hc : c = '-'
    · subst hc
      show ('-' :: (splitMagnitude (cs.map exchange)).1, (splitMagnitude (cs.map exchange)).2) = _
      rw [splitMagnitude_exchange]
      rfl
    · have hc' : exchange c ≠ '-' := fun h => hc ((Bracket.exchange_eq_iff hminus).mp h)
      have hplain : splitNumeral (c :: cs) = splitMagnitude (c :: cs) := by
        unfold splitNumeral
        split
        · next h => exact absurd (List.cons.inj h).1 hc
        · rfl
      rw [hplain, ← splitMagnitude_exchange, List.map_cons]
      unfold splitNumeral
      split
      · next h => exact absurd (List.cons.inj h).1 hc'
      · rfl

theorem startsNumeral_exchange (signed : Bool) (c : Char) :
    startsNumeral signed (exchange c) = startsNumeral signed c :=
  Bracket.apply_exchange (x := false)
    (fun b => by cases b <;> cases signed <;> decide) c

theorem ofSymbol_exchange (c : Char) : ofSymbol (exchange c) = (ofSymbol c).swapBracket := by
  rcases Bracket.exchange_cases c with ⟨b, rfl, hc⟩ | ⟨b, rfl, hc⟩ | ⟨hc, hother⟩
  · rw [hc]
    cases b <;> rfl
  · rw [hc]
    cases b <;> rfl
  · rw [hc]
    unfold ofSymbol
    split
    · exact absurd rfl (hother .round).1
    · exact absurd rfl (hother .round).2
    · exact absurd rfl (hother .square).1
    · exact absurd rfl (hother .square).2
    · split <;> rfl

theorem lexeme_exchange (signed : Bool) (c : Char) (cs : List Char) :
    lexeme signed (exchange c) (cs.map exchange) =
      ((lexeme signed c cs).1.swapBracket, (lexeme signed c cs).2.map exchange) := by
  have hcut := splitNumeral_exchange (c :: cs)
  rw [List.map_cons] at hcut
  unfold lexeme
  rw [startsNumeral_exchange, hcut, ofSymbol_exchange]
  split
  · unfold ofNumeral
    split <;> rfl
  · rfl

/-- By induction along the scanner, which goes on after the exchanged token as after the
    token itself. -/
theorem scan_exchange (signed : Bool) (cs : List Char) :
    scan signed (cs.map exchange) = (scan signed cs).map swapBracket := by
  fun_induction scan signed cs with
  | case1 signed => rw [List.map_nil, scan, List.map_nil]
  | case2 signed c cs hblank ih =>
    rw [List.map_cons, scan, Bracket.isBlank_exchange, if_pos hblank, ih]
  | case3 signed c cs hblank ih =>
    rw [List.map_cons, scan, Bracket.isBlank_exchange, if_neg hblank, lexeme_exchange]
    simp only [wantsOperand_swapBracket, ih, List.map_cons]

theorem tokenize_exchange (source : String) :
    tokenize (source.map exchange) = (tokenize source).map swapBracket := by
  rw [tokenize, String.toList_map, scan_exchange]
  rfl

end Token

/-! ## Renaming the families in a yard -/

/-- What waits, with its bracket family renamed, if it is a bracket. -/
def Waiting.rename (f : Bracket → Bracket) : Waiting → Waiting
  | operator op => operator op
  | opening b => opening (f b)

namespace Yard

section Rename

variable (f : Bracket → Bracket)

/-- The yard with the families of the brackets that wait renamed. -/
def rename (y : Yard) : Yard := { y with stack := y.stack.map (Waiting.rename f) }

/-- What is released lies above all brackets, and no bracket is ever released. -/
theorem release_rename {done : Waiting → Bool} (hdone : ∀ b, done (.opening b) = false)
    (y : Yard) : (y.rename f).release done = (y.release done).rename f := by
  have hboth : ∀ stack : List Waiting,
      (stack.map (Waiting.rename f)).takeWhile done = stack.takeWhile done ∧
      (stack.map (Waiting.rename f)).dropWhile done =
        (stack.dropWhile done).map (Waiting.rename f) := by
    intro stack
    induction stack with
    | nil => exact ⟨rfl, rfl⟩
    | cons x stack ih =>
      cases x with
      | opening b => simp [Waiting.rename, hdone]
      | operator op => cases h : done (.operator op) <;> simp [Waiting.rename, h, ih]
  obtain ⟨htake, hdrop⟩ := hboth y.stack
  simp only [release, rename, released, htake, hdrop]

/-- One token: a bracket that meets the one that opened it meets it under any name. -/
theorem step_rename {y z : Yard} {t : Token} (h : y.step t = .ok z) :
    (y.rename f).step (t.rename f) = .ok (z.rename f) := by
  cases t with
  | number text =>
    cases h
    rfl
  | operator op =>
    cases h
    have hrelease : (y.rename f).release (Waiting.yieldsTo op) =
        (y.release (Waiting.yieldsTo op)).rename f := release_rename f (fun _ => rfl) y
    simp only [Token.rename, step, hrelease]
    rfl
  | opening b =>
    cases h
    rfl
  | closing b =>
    obtain ⟨rest, hdrop, rfl⟩ := step_closing h
    have hrelease : (y.rename f).release Waiting.isOperator =
        (y.release Waiting.isOperator).rename f := release_rename f (fun _ => rfl) y
    have hstack : ((y.rename f).release Waiting.isOperator).stack =
        .opening (f b) :: rest.map (Waiting.rename f) := by
      rw [hrelease]
      exact congrArg (List.map (Waiting.rename f)) hdrop
    rw [Token.rename, step_closing_of_opening hstack, hrelease]
    rfl
  | invalid text => cases h

/-- A whole run. -/
theorem run_rename (ts : List Token) : ∀ {y z : Yard}, y.run ts = .ok z →
    (y.rename f).run (ts.map (Token.rename f)) = .ok (z.rename f) := by
  intro y z h
  unfold run
  rw [List.foldlM_map]
  exact Except.foldlM_follow (step_rename f) ts h

/-- A postfix order outlasts every renaming of the families, also one that makes them
    equal. -/
theorem arrange_rename {ts out : List Token} (h : arrange ts = .ok out) :
    arrange (ts.map (Token.rename f)) = .ok out := by
  obtain ⟨z, hz, rfl, hstack⟩ := exists_run_of_arrange h
  have hrun : run {} (ts.map (Token.rename f)) = .ok (z.rename f) := run_rename f ts hz
  have hrelease : (z.rename f).release Waiting.isOperator =
      (z.release Waiting.isOperator).rename f := release_rename f (fun _ => rfl) z
  have hend : ((z.release Waiting.isOperator).rename f).stack = [] :=
    congrArg (List.map (Waiting.rename f)) hstack
  rw [arrange_eq, hrun, Except.ok_bind, finish, hrelease, hend]
  rfl

end Rename

/-- The postfix order does not depend on the families. -/
theorem arrange_unique {ts us p q : List Token}
    (h : ts.map Token.forgetFamily = us.map Token.forgetFamily) (hts : arrange ts = .ok p)
    (hus : arrange us = .ok q) : p = q := by
  have hp : arrange (ts.map Token.forgetFamily) = .ok p := arrange_rename _ hts
  have hq : arrange (us.map Token.forgetFamily) = .ok q := arrange_rename _ hus
  rw [h, hq] at hp
  exact (Except.ok.inj hp).symm

end Yard

/-! ## Exchanging the families in faults -/

namespace Matching

/-- One token, with or without a fault. -/
theorem step_swapBracket (opened : List Bracket) (t : Token) :
    step (opened.map Bracket.swap) t.swapBracket =
      ((step opened t).map (List.map Bracket.swap)).mapError OrderFault.swapBrackets := by
  cases t with
  | closing b =>
    cases opened with
    | nil => rfl
    | cons a rest =>
      simp only [Token.swapBracket, step, List.map_cons, Bracket.swap_inj]
      split <;> rfl
  | number text => rfl
  | operator op => rfl
  | opening b => rfl
  | invalid text => rfl

/-- A whole run, by induction on the tokens. -/
theorem run_swapBracket (ts : List Token) : ∀ opened,
    run (opened.map Bracket.swap) (ts.map Token.swapBracket) =
      ((run opened ts).map (List.map Bracket.swap)).mapError OrderFault.swapBrackets := by
  induction ts with
  | nil => intro opened; rfl
  | cons t ts ih =>
    intro opened
    rw [List.map_cons, run_cons, run_cons, step_swapBracket]
    cases step opened t with
    | error e => rfl
    | ok next => exact ih next

theorem check_swapBracket (ts : List Token) :
    check (ts.map Token.swapBracket) = (check ts).mapError OrderFault.swapBrackets := by
  have hrun : run [] (ts.map Token.swapBracket) = _ := run_swapBracket ts []
  rw [check, hrun, check]
  cases run [] ts with
  | error e => rfl
  | ok opened => cases opened <;> rfl

end Matching

/-- A yard finds the same postfix order, or the same fault with the families exchanged. -/
theorem Yard.arrange_swapBracket (ts : List Token) :
    arrange (ts.map Token.swapBracket) = (arrange ts).mapError OrderFault.swapBrackets := by
  cases h : arrange ts with
  | ok out =>
    rw [Token.swapBracket_eq_rename, arrange_rename Bracket.swap h]
    rfl
  | error e =>
    rw [arrange_eq_error_iff] at h
    rw [Except.mapError_error, arrange_eq_error_iff, Matching.check_swapBracket, h]
    rfl

theorem Fault.ofOrder_swapBrackets (e : OrderFault) :
    ofOrder e.swapBrackets = (ofOrder e).swapBrackets := by
  cases e <;> rfl

namespace Calculation

open Calculator.Bracket (exchange)

/-! ## Whole calculations -/

/-- Each part of the calculation of the exchanged source does what it does for the source. -/
theorem run_exchange_eq (options : Options) (source : String) :
    run options (source.map exchange) =
      ((run options source).map fun out =>
        { out with tokens := out.tokens.map Token.swapBracket }).mapError Fault.swapBrackets := by
  have hlength : (source.map exchange).length = source.length := String.length_map
  have htokens := Token.tokenize_exchange source
  have harrange := Yard.arrange_swapBracket (Token.tokenize source)
  rw [← htokens] at harrange
  by_cases hfits : source.length ≤ options.limits.inputLength
  · have hfits' : (source.map exchange).length ≤ options.limits.inputLength := by omega
    cases h : Yard.arrange (Token.tokenize source) with
    | ok ordered =>
      rw [h] at harrange
      rw [run_of_arrange hfits' harrange, run_of_arrange hfits h, htokens]
      cases Evaluation.evaluate (some options.limits.operands) ordered <;> rfl
    | error e =>
      rw [h] at harrange
      rw [run_of_arrange_error hfits' harrange, run_of_arrange_error hfits h,
        Fault.ofOrder_swapBrackets]
      rfl
  · rw [run_of_lt_length (by omega), run_of_lt_length (by omega), hlength]
    rfl

/-- **Bracket families matter for nothing but matching.** Let the families be exchanged in a
    source. If its calculation has an outcome, the calculation of the exchanged source has the
    same one but for the families of its tokens; if it has a fault, the other has the same one,
    with the families in it exchanged if it is about brackets. And any two token lists that
    differ in nothing but families have the same postfix order, if they have one at all. -/
theorem run_exchange (options : Options) (source : String) :
    (∀ out, run options source = .ok out → run options (source.map exchange) =
      .ok { out with tokens := out.tokens.map Token.swapBracket }) ∧
    (∀ fault, run options source = .error fault →
      run options (source.map exchange) = .error fault.swapBrackets) ∧
    ∀ ts us p q, ts.map Token.forgetFamily = us.map Token.forgetFamily →
      Yard.arrange ts = .ok p → Yard.arrange us = .ok q → p = q := by
  have hrun := run_exchange_eq options source
  refine ⟨fun out h => ?_, fun fault h => ?_, fun ts us p q => Yard.arrange_unique⟩
  · rw [h] at hrun
    exact hrun
  · rw [h] at hrun
    exact hrun

/-- A mismatch the other way round, a sign after an opening bracket of either family, and
    two lists of which neither is the other with the families exchanged. -/
theorem run_exchange_mismatch :
    let crossed := "[1+(2*3]"
    let signed := "[-8]-1"
    let nested : List Token := [.opening .round, .opening .round, .number "1", .closing .round,
      .closing .round]
    let mixed : List Token := [.opening .square, .opening .round, .number "1", .closing .round,
      .closing .square]
    run {} crossed = .error (.order (.mismatch .round .square)) ∧
    crossed.map exchange = "(1+[2*3)" ∧
    run {} "(1+[2*3)" = .error (.order (.mismatch .square .round)) ∧
    (∃ out, run {} signed = .ok out ∧ signed.map exchange = "(-8)-1" ∧
      run {} "(-8)-1" = .ok { out with tokens := out.tokens.map Token.swapBracket }) ∧
    nested.map Token.forgetFamily = mixed.map Token.forgetFamily ∧
    Yard.arrange nested = .ok [.number "1"] ∧
    ∀ q, Yard.arrange mixed = .ok q → [.number "1"] = q := by
  intro crossed signed nested mixed
  have hcrossed : run {} crossed = .error (.order (.mismatch .round .square)) := by
    have htokens : Token.tokenize crossed = [.opening .square, .number "1", .operator .add,
        .opening .round, .number "2", .operator .mul, .number "3", .closing .square] := by
      decide +kernel
    have horder : Yard.arrange (Token.tokenize crossed) = .error (.mismatch .round .square) := by
      rw [htokens]
      rfl
    have hfits : crossed.length ≤ ({} : Options).limits.inputLength := by decide
    exact run_of_arrange_error hfits horder
  have hsigned : ∃ out, run {} signed = .ok out := by
    have htokens : Token.tokenize signed = [.opening .square, .number "-8", .closing .square,
        .operator .sub, .number "1"] := by decide +kernel
    have hordered : Yard.arrange (Token.tokenize signed) =
        .ok (Tree.node .sub (.leaf "-8") (.leaf "1")).postorder := by
      rw [htokens]
      rfl
    have hfits : signed.length ≤ ({} : Options).limits.inputLength := by decide
    rw [run_of_arrange hfits hordered, Evaluation.evaluate_postorder]
    exact ⟨_, rfl⟩
  have hcrossed' : crossed.map exchange = "(1+[2*3)" := by decide +kernel
  have hsigned' : signed.map exchange = "(-8)-1" := by decide +kernel
  obtain ⟨out, hout⟩ := hsigned
  obtain ⟨_, hfault, hunique⟩ := run_exchange {} crossed
  obtain ⟨hok, _⟩ := run_exchange {} signed
  have hmismatch := hfault _ hcrossed
  have houtcome := hok out hout
  rw [hcrossed'] at hmismatch
  rw [hsigned'] at houtcome
  have hnested : Yard.arrange nested = .ok [.number "1"] := rfl
  have hforgotten : nested.map Token.forgetFamily = mixed.map Token.forgetFamily := rfl
  exact ⟨hcrossed, hcrossed', hmismatch, ⟨out, hout, hsigned', houtcome⟩, hforgotten, hnested,
    fun q => hunique nested mixed _ q hforgotten hnested⟩

end Calculation

end Calculator
