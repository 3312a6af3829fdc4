import Calculator.Journal.Transcript
import Calculator.Proofs.Conservation
import Calculator.Proofs.Messages
import Calculator.Proofs.Value

/-!
# What the phases tell

Each phase of a calculation tells of what it does. The reading tells of the tokens. The yard
tells of each operator that is put on the stack, of each bracket that is closed, and of the
operators that leave the stack before the end. The evaluation tells of the applications by
which the tree of a postfix order comes to its value.

Operators leave the stack in two ways, and only the first is told: on the arrival of a token,
and at the end, when all that wait are released. What carries the proof is that after every
token the operators in the output are exactly those that were told.

Results:

* `about_reading`: what is told of the tokens.
* `Account.arrival`, `Account.append`, `exists_account`: what is told of one token by the yard,
  and of a run.
* `exists_applies`, `about_evaluation`: what is told of an evaluation.
-/

namespace Calculator

open Journal (Event about about_append about_eq_self about_eq_nil)

/-- The bracket that a token closes. -/
def Token.closing? : Token → Option Bracket
  | closing b => some b
  | _ => none

/-- The closing brackets among tokens, in their order. -/
def Token.closings (ts : List Token) : List Bracket := ts.filterMap Token.closing?

/-! ## Applications -/

/-- An operator with its operands, the left one first, and its value. -/
structure Application where
  left : Float
  op : Operator
  right : Float
  result : Float

/-- What is told of an application. -/
def Application.event (x : Application) : Event := .operatorApplied x.left x.op x.right x.result

/-- Big-step semantics of expressions: `t.Applies steps x` holds when the tree has the value `x`
    and comes to it by the applications `steps`, those in the left operand first, then those in
    the right operand, then its own to their values. -/
inductive Tree.Applies : Tree String → List Application → Float → Prop
  | leaf {text : String} {x : Float} : Decimal.read? text = some x → Applies (.leaf text) [] x
  | node {op : Operator} {l r : Tree String} {before after : List Application} {a b x : Float} :
      Applies l before a → Applies r after b → op.apply a b = .ok x →
      Applies (.node op l r) (before ++ after ++ [⟨a, op, b, x⟩]) x

theorem Tree.Applies.map_op {t : Tree String} {steps : List Application} {x : Float}
    (h : t.Applies steps x) : steps.map Application.op = Token.operators t.postorder := by
  induction h with
  | leaf _ => rfl
  | node _ _ _ ihl ihr =>
    rw [Tree.postorder, Token.operators_append, Token.operators_append, ← ihl, ← ihr,
      List.map_append, List.map_append]
    rfl

/-- The last application is that of the whole expression. -/
theorem Tree.Applies.result_getLast {t : Tree String} {steps : List Application} {x : Float}
    (h : t.Applies steps x) : ∀ step ∈ steps.getLast?, step.result = x := by
  intro step hstep
  cases h with
  | leaf _ => cases hstep
  | node _ _ _ =>
    rw [List.getLast?_concat] at hstep
    cases hstep
    rfl

namespace Transcript

/-! ## Reading -/

/-- Of tokens that are all valid, each is told. -/
theorem about_reading {source : String} (h : ∀ text, Token.invalid text ∉ Token.tokenize source) :
    about "Produced token" (reading source) = (Token.tokenize source).map .tokenRead := by
  have hall : about "Produced token" ((Token.tokenize source).map .tokenRead) =
      (Token.tokenize source).map .tokenRead := by
    apply about_eq_self
    intro e he
    obtain ⟨t, ht, rfl⟩ := List.mem_map.mp he
    cases t with
    | invalid text => exact absurd ht (h text)
    | _ => rfl
  have hfirst : about "Produced token" [.readingStarted source.utf8ByteSize] = [] := rfl
  have hlast : about "Produced token" [.readingFinished (Token.tokenize source).length] = [] := rfl
  rw [reading, ← List.singleton_append, about_append, about_append, hfirst, hall, hlast,
    List.nil_append, List.append_nil]

/-! ## Ordering -/

section

open Token (operators operators_append closings)

/-- From the yard `y` to the yard `z` the tokens `ts` were taken, and the events tell of it:
    one of each operator that was put on the stack, one of each bracket that was closed, and
    one of each operator that came to the output. -/
structure Account (y z : Yard) (ts : List Token) (events : List Event) : Prop where
  pushed : (about "Push operator" events).length = (operators ts).length
  matched : about "Matched bracket" events = (closings ts).map .bracketMatched
  popped : ∃ ops : List Operator,
    about "Pop to output" events = ops.map (fun op => .released (.operator op)) ∧
    operators z.output.toList = operators y.output.toList ++ ops

/-- What is released are operators. -/
theorem released_eq_map {done : Waiting → Bool} (hdone : ∀ b, done (.opening b) = false)
    (stack : List Waiting) :
    Yard.released done stack = (operators (Yard.released done stack)).map .operator := by
  induction stack with
  | nil => rfl
  | cons x stack ih =>
    unfold Yard.released at ih ⊢
    rw [List.takeWhile_cons]
    split
    next hx =>
      cases x with
      | operator op => exact congrArg (.operator op :: ·) ih
      | opening b => rw [hdone] at hx; cases hx
    next => rfl

theorem about_released {words : String} (h : words ≠ "Pop to output") (ts : List Token) :
    about words (ts.map .released) = [] := by
  apply about_eq_nil
  intro e he
  obtain ⟨t, _, rfl⟩ := List.mem_map.mp he
  exact h.symm

theorem about_pop_released (ts : List Token) :
    about "Pop to output" (ts.map .released) = ts.map .released := by
  apply about_eq_self
  intro e he
  obtain ⟨t, _, rfl⟩ := List.mem_map.mp he
  rfl

/-- When operators are released, exactly they are told, and nothing else. -/
theorem popped_release (done : Waiting → Bool) (hdone : ∀ b, done (.opening b) = false)
    (y : Yard) : ∃ ops : List Operator,
      about "Pop to output" ((Yard.released done y.stack).map .released) =
        ops.map (fun op => .released (.operator op)) ∧
      operators (y.release done).output.toList = operators y.output.toList ++ ops := by
  refine ⟨operators (Yard.released done y.stack), ?_, ?_⟩
  · rw [about_pop_released]
    have hmap := congrArg (List.map Event.released) (released_eq_map hdone y.stack)
    exact hmap.trans List.map_map
  · rw [Yard.toList_output_release, operators_append]

/-- The last event of an operator's arrival tells how many wait below it. -/
theorem about_arrival_operator (stack : List Waiting) (op : Operator) :
    about "Push operator" (arrival stack (.operator op)) =
      [.operatorPushed op (stack.dropWhile (Waiting.yieldsTo op)).length] := by
  rw [arrival, about_append, about_released (by decide)]
  rfl

/-- One token. -/
theorem Account.arrival {y z : Yard} {t : Token} (h : y.step t = .ok z) :
    Account y z [t] (arrival y.stack t) := by
  cases t with
  | number text =>
    cases h
    refine ⟨rfl, rfl, [], rfl, ?_⟩
    rw [Array.toList_push, operators_append]
    rfl
  | operator op =>
    cases h
    refine ⟨?_, ?_, ?_⟩
    · rw [about_arrival_operator]
      rfl
    · rw [Transcript.arrival, about_append, about_released (by decide)]
      rfl
    · obtain ⟨ops, hops, houtput⟩ := popped_release (Waiting.yieldsTo op) (fun _ => rfl) y
      refine ⟨ops, ?_, houtput⟩
      rw [Transcript.arrival, about_append, hops]
      exact List.append_nil _
  | opening b =>
    cases h
    exact ⟨rfl, rfl, [], rfl, (List.append_nil _).symm⟩
  | closing b =>
    obtain ⟨rest, hdrop, rfl⟩ := Yard.step_closing h
    have harrival : Transcript.arrival y.stack (.closing b) =
        (Yard.released Waiting.isOperator y.stack).map .released ++ [.bracketMatched b] := by
      rw [Transcript.arrival, hdrop, List.head?_cons, if_pos rfl]
    rw [harrival]
    refine ⟨?_, ?_, ?_⟩
    · rw [about_append, about_released (by decide)]
      rfl
    · rw [about_append, about_released (by decide)]
      rfl
    · obtain ⟨ops, hops, houtput⟩ := popped_release Waiting.isOperator (fun _ => rfl) y
      refine ⟨ops, ?_, houtput⟩
      rw [about_append, hops]
      exact List.append_nil _
  | invalid text => cases h

theorem Account.append {x y z : Yard} {ts us : List Token} {events more : List Event}
    (h : Account x y ts events) (h' : Account y z us more) :
    Account x z (ts ++ us) (events ++ more) := by
  obtain ⟨ops, hops, houtput⟩ := h.popped
  obtain ⟨ops', hops', houtput'⟩ := h'.popped
  refine ⟨?_, ?_, ops ++ ops', ?_, ?_⟩
  · rw [about_append, operators_append, List.length_append, List.length_append, h.pushed, h'.pushed]
  · rw [about_append, closings, List.filterMap_append, List.map_append, h.matched, h'.matched]
    rfl
  · rw [about_append, List.map_append, hops, hops']
  · rw [houtput', houtput, List.append_assoc]

/-- A whole run, whatever is taken after it; by induction on the tokens. -/
theorem exists_account (ts : List Token) : ∀ {y z : Yard}, y.run ts = .ok z →
    ∃ events, (∀ us, arrivals y (ts ++ us) = events ++ arrivals z us) ∧
      Account y z ts events := by
  induction ts with
  | nil =>
    intro y z h
    cases h
    exact ⟨[], fun us => rfl, rfl, rfl, [], rfl, (List.append_nil _).symm⟩
  | cons t ts ih =>
    intro y z h
    rw [Yard.run_cons] at h
    obtain ⟨m, hm, hz⟩ := Except.bind_eq_ok_iff.mp h
    obtain ⟨events, hevents, haccount⟩ := ih hz
    refine ⟨arrival y.stack t ++ events, fun us => ?_, (Account.arrival hm).append haccount⟩
    rw [List.cons_append, arrivals, hm, List.append_assoc]
    simp only [hevents us]

/-- All tokens: the first and the last event tell of none of them. -/
theorem exists_account_ordering {ts : List Token} {z : Yard} (h : Yard.run {} ts = .ok z) :
    ∃ events, (∀ words, words ≠ "Starting shunting yard" → words ≠ "Shunting yard finished" →
      about words (ordering ts) = about words events) ∧ Account {} z ts events := by
  obtain ⟨events, hevents, haccount⟩ := exists_account ts h
  refine ⟨events, fun words hfirst hlast => ?_, haccount⟩
  have hall := hevents []
  rw [List.append_nil] at hall
  have hstart : about words [.orderingStarted ts.length] = [] := by
    apply about_eq_nil
    intro e he
    rw [List.mem_singleton.mp he]
    exact hfirst.symm
  have hend : about words (arrivals z []) = [] := by
    apply about_eq_nil
    intro e he
    rw [arrivals] at he
    split at he
    · rw [List.mem_singleton.mp he]
      exact hlast.symm
    · cases he
  rw [ordering, ← List.singleton_append, hall, about_append, about_append, hstart, hend,
    List.nil_append, List.append_nil]

end

/-! ## Evaluating -/

/-- An operand that is accepted has been read. -/
theorem read?_of_operand {limit : Option Nat} {height : Nat} {text : String} {x : Float}
    (h : Evaluation.operand limit height text = .ok x) : Decimal.read? text = some x := by
  unfold Evaluation.operand at h
  split at h
  next y hread =>
    rw [hread]
    split at h
    · split at h
      · cases h
      · exact congrArg some (Except.ok.inj h)
    · exact congrArg some (Except.ok.inj h)
  next => cases h

/-- The evaluation of a tree's postfix order is told application by application, whatever
    operands wait below and whatever follows; by induction on the tree. -/
theorem exists_applies {limit : Option Nat} (t : Tree String) : ∀ {height : Nat} {x : Float},
    t.value (Evaluation.operand limit) height = .ok x →
    ∃ steps, t.Applies steps x ∧
      ∀ stack : Evaluation.Operands, stack.length = height → ∀ rest,
        applications limit stack (t.postorder ++ rest) =
          steps.map Application.event ++ applications limit (x :: stack) rest := by
  induction t with
  | leaf text =>
    intro height x h
    refine ⟨[], .leaf (read?_of_operand h), fun stack hstack rest => ?_⟩
    have hstep : Evaluation.step limit stack (.number text) = .ok (x :: stack) := by
      rw [Evaluation.step_number, hstack]
      exact congrArg (Except.map (· :: stack)) h
    rw [Tree.postorder, List.singleton_append, applications, hstep]
    rfl
  | node op l r ihl ihr =>
    intro height x h
    obtain ⟨a, ha, hrest⟩ := Except.bind_eq_ok_iff.mp h
    obtain ⟨b, hb, hx⟩ := Except.bind_eq_ok_iff.mp hrest
    obtain ⟨before, hbefore, hleft⟩ := ihl ha
    obtain ⟨after, hafter, hright⟩ := ihr hb
    refine ⟨_, .node hbefore hafter hx, fun stack hstack rest => ?_⟩
    have hlength : (a :: stack).length = height + 1 := by rw [List.length_cons, hstack]
    have hstep : Evaluation.step limit (b :: a :: stack) (.operator op) = .ok (x :: stack) := by
      rw [Evaluation.step_operator, hx]
      rfl
    have happly : application (b :: a :: stack) (.operator op) = [.operatorApplied a op b x] := by
      simp only [application, hx]
    rw [Tree.postorder, List.append_assoc, List.append_assoc, hleft stack hstack,
      hright (a :: stack) hlength, List.singleton_append, applications, hstep, happly]
    simp only [List.map_append, List.append_assoc]
    rfl

/-- What is told of an evaluation that succeeds are the applications that make up the value. -/
theorem about_evaluation {options : Options} {t : Tree String} {x : Float}
    (h : t.value (Evaluation.operand (some options.limits.operands)) 0 = .ok x) :
    ∃ steps, t.Applies steps x ∧
      about "Applied operator" (evaluation options t.postorder) =
        steps.map Application.event := by
  obtain ⟨steps, hsteps, happlications⟩ := exists_applies t h
  refine ⟨steps, hsteps, ?_⟩
  have hall := happlications [] rfl []
  rw [List.append_nil] at hall
  have hself : about "Applied operator" (steps.map Application.event) =
      steps.map Application.event := by
    apply about_eq_self
    intro e he
    obtain ⟨step, _, rfl⟩ := List.mem_map.mp he
    rfl
  have hfirst : about "Applied operator" [.evaluationStarted t.postorder.length] = [] := rfl
  have hlast : about "Applied operator"
      (applications (some options.limits.operands) [x] []) = [] := rfl
  rw [evaluation, evaluating, ← List.singleton_append, hall, about_append, about_append, hfirst,
    hself, hlast, List.nil_append, List.append_nil]

end Transcript

end Calculator
