import Calculator.Proofs.Value
import Calculator.Proofs.Wellformed

/-!
# Lists that are well-formed token by token

Whether a token list is an expression shows in each pair of neighbours: an operand is
followed by an operator, by the end of its group or by nothing, and what wants an operand
is followed by one. With matching brackets that is all: such a list is an expression, so
its postfix order belongs to a tree, and the evaluation of a tree always finds as many
operands as it needs and leaves one.

Results:

* `locallyWellformed_iff`: the condition on neighbours says the same as alternation.
* `exists_derives_iff_locallyWellformed`: exactly the expressions are well-formed token by
  token.
* `Tree.fault_of_value`: which faults the value of a tree may have.
* `evaluate_locallyWellformed`: no operator of such a list lacks an operand, and none is
  left over.
-/

namespace Calculator

/-! ## Neighbours -/

namespace Token

/-- Whether an operand may begin with the token. -/
def beginsOperand : Token → Bool
  | number _ => true
  | opening _ => true
  | _ => false

/-- Whether an operand may end with the token. -/
def endsOperand : Token → Bool
  | number _ => true
  | closing _ => true
  | _ => false

/-- Whether the token may stand behind an operand. -/
def followsOperand : Token → Bool
  | operator _ => true
  | closing _ => true
  | _ => false

end Token

/-- The brackets match, the first token begins an operand, and every token has a fitting
    one behind it: behind an operand nothing, an operator or a closing bracket, behind an
    operator or an opening bracket another operand. -/
structure LocallyWellformed (ts : List Token) : Prop where
  ne_nil : ts ≠ []
  valid : ∀ text, Token.invalid text ∉ ts
  matched : Matching.run [] ts = .ok []
  first : ∀ t ∈ ts.head?, t.beginsOperand = true
  operand : ∀ before t after, ts = before ++ t :: after → t.endsOperand = true →
    ∀ next ∈ after.head?, next.followsOperand = true
  due : ∀ before t after, ts = before ++ t :: after → t.wantsOperand = true →
    ∃ next ∈ after.head?, next.beginsOperand = true

/-! ## Neighbours and alternation -/

/-- From the front to the back: behind every token it is known what is due. -/
theorem LocallyWellformed.alternate_suffix {ts : List Token} (h : LocallyWellformed ts)
    (after : List Token) : ∀ before, ts = before ++ after →
      ((∃ next ∈ after.head?, next.beginsOperand = true) → Token.alternate true after = true) ∧
      ((∀ next ∈ after.head?, next.followsOperand = true) → Token.alternate false after = true) := by
  induction after with
  | nil =>
    intro before _
    refine ⟨?_, fun _ => rfl⟩
    rintro ⟨next, hnext, _⟩
    cases hnext
  | cons t after ih =>
    intro before hts
    have hrest := ih (before ++ [t]) (by rw [hts, List.append_assoc]; rfl)
    constructor
    · rintro ⟨next, hnext, hbegins⟩
      cases hnext
      cases t with
      | number text => exact hrest.2 (h.operand before _ after hts rfl)
      | opening b => exact hrest.1 (h.due before _ after hts rfl)
      | operator op => cases hbegins
      | closing b => cases hbegins
      | invalid text => cases hbegins
    · intro hnext
      have hfollows := hnext t rfl
      cases t with
      | operator op => exact hrest.1 (h.due before _ after hts rfl)
      | closing b => exact hrest.2 (h.operand before _ after hts rfl)
      | number text => cases hfollows
      | opening b => cases hfollows
      | invalid text => cases hfollows

namespace Token

theorem beginsOperand_of_alternate {ts : List Token} (h : alternate true ts = true) :
    ∃ t ∈ ts.head?, t.beginsOperand = true := by
  cases ts with
  | nil => cases h
  | cons t ts =>
    refine ⟨t, rfl, ?_⟩
    cases t with
    | number text => rfl
    | opening b => rfl
    | operator op => cases h
    | closing b => cases h
    | invalid text => cases h

theorem followsOperand_of_alternate {ts : List Token} (h : alternate false ts = true) :
    ∀ t ∈ ts.head?, t.followsOperand = true := by
  intro t ht
  obtain ⟨rest, rfl⟩ := List.head?_eq_some_iff.mp ht
  cases t with
  | operator op => rfl
  | closing b => rfl
  | number text => cases h
  | opening b => cases h
  | invalid text => cases h

/-- Behind a token at the front, alternation goes on with what the token asks for. -/
theorem alternate_cons {due : Bool} {t : Token} {ts : List Token}
    (h : alternate due (t :: ts) = true) :
    (t.wantsOperand = true ∧ alternate true ts = true) ∨
    (t.endsOperand = true ∧ alternate false ts = true) := by
  cases due with
  | true =>
    cases t with
    | number text => exact .inr ⟨rfl, h⟩
    | opening b => exact .inl ⟨rfl, h⟩
    | operator op => cases h
    | closing b => cases h
    | invalid text => cases h
  | false =>
    cases t with
    | operator op => exact .inl ⟨rfl, h⟩
    | closing b => exact .inr ⟨rfl, h⟩
    | number text => cases h
    | opening b => cases h
    | invalid text => cases h

/-- The same behind any token, by induction on what stands before it. -/
theorem alternate_after {before : List Token} {t : Token} {after : List Token} : ∀ {due : Bool},
    alternate due (before ++ t :: after) = true →
      (t.wantsOperand = true ∧ alternate true after = true) ∨
      (t.endsOperand = true ∧ alternate false after = true) := by
  induction before with
  | nil =>
    intro due h
    exact alternate_cons h
  | cons u before ih =>
    intro due h
    rcases alternate_cons h with ⟨_, hrest⟩ | ⟨_, hrest⟩
    · exact ih hrest
    · exact ih hrest

end Token

/-- The condition on neighbours says that operands and operators alternate. -/
theorem locallyWellformed_iff {ts : List Token} :
    LocallyWellformed ts ↔ Token.alternate true ts = true ∧ Matching.check ts = .ok () := by
  rw [Matching.check_eq_ok_iff]
  constructor
  · intro h
    obtain ⟨t, rest, hts⟩ := List.exists_cons_of_ne_nil h.ne_nil
    have hhead : t ∈ ts.head? := by rw [hts]; rfl
    exact ⟨(h.alternate_suffix ts [] rfl).1 ⟨t, hhead, h.first t hhead⟩, h.matched⟩
  · rintro ⟨halt, hmatched⟩
    obtain ⟨first, hfirst, hbegins⟩ := Token.beginsOperand_of_alternate halt
    refine ⟨?_, ?_, hmatched, ?_, ?_, ?_⟩
    · rintro rfl
      cases halt
    · intro text hmem
      obtain ⟨before, after, rfl⟩ := List.append_of_mem hmem
      rcases Token.alternate_after halt with ⟨h, _⟩ | ⟨h, _⟩ <;> cases h
    · intro t ht
      rw [Option.mem_unique ht hfirst]
      exact hbegins
    · rintro before t after rfl hends
      rcases Token.alternate_after halt with ⟨hwants, _⟩ | ⟨_, hafter⟩
      · cases t <;> cases hends <;> cases hwants
      · exact Token.followsOperand_of_alternate hafter
    · rintro before t after rfl hwants
      rcases Token.alternate_after halt with ⟨_, hafter⟩ | ⟨hends, _⟩
      · exact Token.beginsOperand_of_alternate hafter
      · cases t <;> cases hends <;> cases hwants

/-- Exactly the expressions are well-formed token by token. -/
theorem exists_derives_iff_locallyWellformed {ts : List Token} :
    (∃ t, Derives .expression ts t) ↔ LocallyWellformed ts := by
  rw [exists_derives_iff, locallyWellformed_iff]

/-! ## Faults of trees -/

/-- The value of a tree lacks no operand and has none to spare. -/
theorem Tree.fault_of_value {limit : Option Nat} {e : ValueFault} (t : Tree String) :
    ∀ height, t.value (Evaluation.operand limit) height = .error e →
      e = .divisionByZero ∨ (∃ text, e = .invalidToken text) ∨
        ∃ most, limit = some most ∧ e = .stackOverflow most := by
  induction t with
  | leaf text =>
    intro height h
    rw [Tree.value, Evaluation.operand] at h
    cases hread : Decimal.read? text with
    | none =>
      rw [hread] at h
      cases h
      exact .inr (.inl ⟨text, rfl⟩)
    | some x =>
      rw [hread] at h
      cases limit with
      | none => cases h
      | some most =>
        dsimp only at h
        split at h
        · cases h
          exact .inr (.inr ⟨most, rfl, rfl⟩)
        · cases h
  | node op l r ihl ihr =>
    intro height h
    rw [Tree.value] at h
    cases hl : l.value (Evaluation.operand limit) height with
    | error e' =>
      rw [hl] at h
      cases h
      exact ihl height hl
    | ok a =>
      rw [hl, Except.ok_bind] at h
      cases hr : r.value (Evaluation.operand limit) (height + 1) with
      | error e' =>
        rw [hr] at h
        cases h
        exact ihr (height + 1) hr
      | ok b =>
        rw [hr, Except.ok_bind] at h
        exact .inl (Operator.apply_eq_error h).2.2

/-! ## Evaluating -/

/-- **Lists that are well-formed token by token never fail for want of operands.** If the
    brackets of a list match and every two neighbours in it fit, the list has a postfix order,
    and whatever the limit on waiting operands, the evaluation of that order finds two operands
    for each operator and ends with a single one. -/
theorem evaluate_locallyWellformed {ts : List Token} (h : LocallyWellformed ts) :
    ∃ out, Yard.arrange ts = .ok out ∧ ∀ limit,
      (∀ op, Evaluation.evaluate limit out ≠ .error (.tooFewOperands op)) ∧
      ∀ count, Evaluation.evaluate limit out ≠ .error (.remainingOperands count) := by
  obtain ⟨t, hderives⟩ := exists_derives_iff_locallyWellformed.mpr h
  refine ⟨t.postorder, hderives.arrange_eq, fun limit => ?_⟩
  have hfault : ∀ e, Evaluation.evaluate limit t.postorder = .error e →
      e = .divisionByZero ∨ (∃ text, e = .invalidToken text) ∨
        ∃ most, limit = some most ∧ e = .stackOverflow most := by
    intro e he
    rw [Evaluation.evaluate_postorder] at he
    exact t.fault_of_value 0 he
  constructor
  · intro op hop
    rcases hfault _ hop with hother | ⟨_, hother⟩ | ⟨_, _, hother⟩ <;> cases hother
  · intro count hcount
    rcases hfault _ hcount with hother | ⟨_, hother⟩ | ⟨_, _, hother⟩ <;> cases hother

/-- A power of a bracketed difference, in which the signs are operators. -/
theorem evaluate_locallyWellformed_power :
    let ts : List Token := [.number "8", .operator .sub, .opening .square, .opening .round,
      .number "1", .closing .round, .operator .sub, .number "-2", .closing .square,
      .operator .pow, .number "3"]
    LocallyWellformed ts ∧
    ∃ out, Yard.arrange ts = .ok out ∧
      out = [.number "8", .number "1", .number "-2", .operator .sub, .number "3", .operator .pow,
        .operator .sub] ∧
      ∀ limit, (∀ op, Evaluation.evaluate limit out ≠ .error (.tooFewOperands op)) ∧
        ∀ count, Evaluation.evaluate limit out ≠ .error (.remainingOperands count) := by
  intro ts
  have h : LocallyWellformed ts := locallyWellformed_iff.mpr ⟨rfl, rfl⟩
  obtain ⟨out, hout, harity⟩ := evaluate_locallyWellformed h
  exact ⟨h, out, hout, (Except.ok.inj hout).symm, harity⟩

end Calculator
