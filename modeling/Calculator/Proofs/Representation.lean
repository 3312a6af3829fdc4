import Calculator.Proofs.Depth
import Calculator.Proofs.Groups
import Calculator.Proofs.Origins
import Calculator.Proofs.TokenStack

/-!
# What a yard holds

After any tokens that a yard has taken, its output and its stack can be told from the tokens.
The brackets on the stack are those that have no partner yet. The operators between two of
them, below the first or above the last, rise: from the bottom to the top each binds more
strongly than the one below it, and only powers lie on powers. What is neither waiting nor in
the output was a bracket.

Results:

* `unmatched_eq`: the brackets that the matcher has open are those without a partner.
* `layered_of_rising`: operators that rise are at most one of sum and difference, on it at most
  one of product and quotient, and on that any number of powers.
* `Yard.output_waiting_perm`: the operators that wait and the output are the numerals and
  operators taken.
* `represents_run`: after all tokens that are taken without a fault, also where others follow.
-/

namespace Calculator

/-! ## Brackets without a partner -/

section Partner

variable {b : Bracket} {ts : List Token}

/-- An opening bracket has a partner where a closing one of its family follows and the
    brackets between match. -/
theorem exists_pair_iff : (∃ q, Pair (.opening b :: ts) 0 q) ↔
    ∃ inner after, ts = inner ++ .closing b :: after ∧ Matching.run [] inner = .ok [] := by
  constructor
  · rintro ⟨q, before, a, inner, after, hts, hinner, hlength, _⟩
    obtain rfl := List.length_eq_zero_iff.mp hlength
    cases hts
    exact ⟨inner, after, rfl, Matching.check_eq_ok_iff.mp hinner⟩
  · rintro ⟨inner, after, rfl, hinner⟩
    exact ⟨_, [], b, inner, after, rfl, Matching.check_eq_ok_iff.mpr hinner, rfl, rfl⟩

/-- The partner is looked for at every place behind. -/
theorem exists_pair_iff_getElem? : (∃ q, Pair (.opening b :: ts) 0 q) ↔
    ∃ n, n < ts.length ∧ ts[n]? = some (.closing b) ∧ Matching.run [] (ts.take n) = .ok [] := by
  rw [exists_pair_iff]
  constructor
  · rintro ⟨inner, after, rfl, hinner⟩
    refine ⟨inner.length, by simp, by simp, ?_⟩
    rwa [List.take_left]
  · rintro ⟨n, _, hn, hinner⟩
    obtain ⟨inner, after, rfl, rfl⟩ := exists_split hn
    rw [List.take_left] at hinner
    exact ⟨inner, after, rfl, hinner⟩

instance (opened : List Bracket) (ts : List Token) : Decidable (Matching.run opened ts = .ok []) :=
  match Matching.run opened ts with
  | .ok [] => isTrue rfl
  | .ok (_ :: _) => isFalse nofun
  | .error _ => isFalse nofun

instance (b : Bracket) (ts : List Token) : Decidable (∃ q, Pair (.opening b :: ts) 0 q) :=
  decidable_of_iff _ exists_pair_iff_getElem?.symm

end Partner

/-- The opening brackets that have no partner, in their order. A partner stands behind its
    bracket, so the tokens before it do not matter. -/
def unmatched : List Token → List Token
  | [] => []
  | .opening b :: ts =>
    if ∃ q, Pair (.opening b :: ts) 0 q then unmatched ts else .opening b :: unmatched ts
  | _ :: ts => unmatched ts

/-- Where the brackets end matched, also with some open before, none lacks a partner. -/
theorem unmatched_eq_nil (ts : List Token) : ∀ {opened : List Bracket},
    Matching.run opened ts = .ok [] → unmatched ts = [] := by
  induction ts with
  | nil => intro opened h; rfl
  | cons t ts ih =>
    intro opened h
    rw [Matching.run_cons] at h
    obtain ⟨next, hnext, hrest⟩ := Except.bind_eq_ok_iff.mp h
    cases t with
    | opening b =>
      cases hnext
      unfold unmatched
      rw [if_pos (exists_pair_iff.mpr (Matching.exists_closing hrest))]
      exact ih hrest
    | number text => exact ih hrest
    | operator op => exact ih hrest
    | closing b => exact ih hrest
    | invalid text => exact ih hrest

section Open

variable {inner : List Token} (hinner : Matching.run [] inner = .ok [])

include hinner

/-- A bracket that is still open, with matching brackets after it, is no partner and hides
    none. -/
theorem exists_pair_append_iff (a b : Bracket) (before : List Token) :
    (∃ q, Pair (.opening a :: (before ++ .opening b :: inner)) 0 q) ↔
      ∃ q, Pair (.opening a :: before) 0 q := by
  rw [exists_pair_iff, exists_pair_iff]
  constructor
  · rintro ⟨l, after, hsplit, hl⟩
    rcases Nat.lt_trichotomy l.length before.length with hlt | heq | hgt
    · obtain ⟨m, hbefore, _⟩ := exists_between hsplit.symm hlt
      exact ⟨l, m, hbefore, hl⟩
    · obtain ⟨_, hcons⟩ := List.append_inj hsplit heq.symm
      cases (List.cons.inj hcons).1
    · obtain ⟨m, rfl, hm⟩ := exists_between hsplit hgt
      rw [hm, Matching.run_append_eq_ok_iff] at hinner
      obtain ⟨left, hleft, _⟩ := hinner
      exact absurd hl (Matching.run_opening_ne_nil hleft)
  · rintro ⟨l, after, rfl, hl⟩
    exact ⟨l, after ++ .opening b :: inner, by simp, hl⟩

theorem not_exists_pair (b : Bracket) : ¬ ∃ q, Pair (.opening b :: inner) 0 q := by
  rw [exists_pair_iff]
  rintro ⟨l, after, rfl, hl⟩
  rw [Matching.run_append_ok _ hl] at hinner
  cases hinner

theorem unmatched_append_opening (b : Bracket) (before : List Token) :
    unmatched (before ++ .opening b :: inner) = unmatched before ++ [.opening b] := by
  induction before with
  | nil =>
    show unmatched (.opening b :: inner) = _
    unfold unmatched
    rw [if_neg (not_exists_pair hinner b), unmatched_eq_nil inner hinner]
    rfl
  | cons t before ih =>
    cases t with
    | opening a =>
      rw [List.cons_append]
      unfold unmatched
      simp only [exists_pair_append_iff hinner, ih]
      split <;> rfl
    | number text => exact ih
    | operator op => exact ih
    | closing a => exact ih
    | invalid text => exact ih

end Open

/-- The matcher has open what has no partner, by induction on the open brackets. -/
theorem unmatched_eq (opened : List Bracket) : ∀ {ts : List Token},
    Matching.run [] ts = .ok opened → unmatched ts = (opened.map .opening).reverse := by
  induction opened with
  | nil => intro ts h; exact unmatched_eq_nil ts h
  | cons b rest ih =>
    intro ts h
    obtain ⟨before, inner, rfl, hbefore, hinner⟩ := Matching.exists_opening h
    rw [unmatched_append_opening hinner, ih hbefore, List.map_cons, List.reverse_cons]

/-- The square brackets are a pair. -/
example : unmatched [.opening .round, .number "1", .opening .square, .closing .square,
    .opening .round] = [.opening .round, .opening .round] := by decide

/-! ## Operators that rise -/

namespace Operator

/-- `lower` may wait directly under `upper`: it binds less strongly, or both are powers. -/
def Under (lower upper : Operator) : Prop :=
  lower.precedence < upper.precedence ∨ (lower = .pow ∧ upper = .pow)

instance (lower upper : Operator) : Decidable (lower.Under upper) :=
  inferInstanceAs (Decidable (_ ∨ _))

theorem Under.trans {a b c : Operator} (h : a.Under b) (h' : b.Under c) : a.Under c := by
  revert h h'
  cases a <;> cases b <;> cases c <;> decide

instance : Trans Under Under Under := ⟨Under.trans⟩

/-- A sum or difference lies on nothing. -/
theorem not_under_sum {lower upper : Operator} (h : upper = .add ∨ upper = .sub) :
    ¬ lower.Under upper := by
  rcases h with rfl | rfl <;> cases lower <;> decide

/-- A product or quotient lies on a sum or difference only. -/
theorem Under.lower_of_product {lower upper : Operator} (h : lower.Under upper)
    (hupper : upper = .mul ∨ upper = .div) : lower = .add ∨ lower = .sub := by
  revert h
  rcases hupper with rfl | rfl <;> cases lower <;> decide

end Operator

/-- At most one of sum and difference, on it at most one of product and quotient, and on that
    any number of powers. -/
def Layered (ops : List Operator) : Prop :=
  ∃ sums products powers, ops = sums ++ products ++ powers ∧
    sums.length ≤ 1 ∧ (∀ op ∈ sums, op = .add ∨ op = .sub) ∧
    products.length ≤ 1 ∧ (∀ op ∈ products, op = .mul ∨ op = .div) ∧
    ∀ op ∈ powers, op = .pow

/-- What an operator lies under leaves no room for a second of its kind; by induction on the
    operators, from the top. -/
theorem layered_of_rising {ops : List Operator} (h : ops.IsChain Operator.Under) :
    Layered ops := by
  rw [List.isChain_iff_pairwise] at h
  induction ops with
  | nil => exact ⟨[], [], [], rfl, by simp⟩
  | cons op ops ih =>
    obtain ⟨hop, hrest⟩ := List.pairwise_cons.mp h
    obtain ⟨sums, products, powers, rfl, _, hsums, hlength, hproducts, hpowers⟩ := ih hrest
    have hnone : sums = [] := by
      rw [List.eq_nil_iff_forall_not_mem]
      intro x hx
      exact Operator.not_under_sum (hsums x hx) (hop x (by simp [hx]))
    have hclear : ¬ (op = .add ∨ op = .sub) → products = [] := by
      intro hbound
      rw [List.eq_nil_iff_forall_not_mem]
      intro x hx
      have hunder : op.Under x := hop x (by simp [hx])
      exact hbound (hunder.lower_of_product (hproducts x hx))
    subst hnone
    by_cases hsum : op = .add ∨ op = .sub
    · exact ⟨[op], products, powers, rfl, by simp, by simpa using hsum, hlength, hproducts,
        hpowers⟩
    · obtain rfl := hclear hsum
      by_cases hproduct : op = .mul ∨ op = .div
      · exact ⟨[], [op], powers, rfl, by simp, by simp, by simp, by simpa using hproduct, hpowers⟩
      · have hpow : op = .pow := by
          revert hsum hproduct
          cases op <;> decide
        exact ⟨[], [], op :: powers, rfl, by simp, by simp, by simp, by simp,
          by simpa [hpow] using hpowers⟩

/-! ## The stack of a yard -/

namespace Trail

theorem map_fst_pending (stack : List (Waiting × Nat)) :
    (pending stack).map Prod.fst = (Yard.waiting (stack.map Prod.fst)).map .operator := by
  induction stack with
  | nil => rfl
  | cons w stack ih =>
    obtain ⟨w, i⟩ := w
    cases w with
    | operator op => exact congrArg (Token.operator op :: ·) ih
    | opening b => exact ih

/-- Without the positions, the order so far is the output and the operators that wait. -/
theorem map_fst_row (s : Trail) :
    s.row.map Prod.fst = s.yard.output.toList ++ (Yard.waiting s.yard.stack).map .operator := by
  unfold row yard
  rw [List.map_append, map_fst_pending]

end Trail

theorem Waiting.token_injective : Function.Injective Waiting.token := by
  intro v w h
  cases v <;> cases w <;> simp [token] at h <;> rw [h]

namespace Yard

/-- Operators that lie next to each other on the stack, from the bottom to the top, rise. -/
theorem Ordered.rising {stack : List Waiting} (h : Ordered stack) {below above : List Token}
    {ops : List Operator}
    (hops : (stack.map Waiting.token).reverse = below ++ ops.map .operator ++ above) :
    ops.IsChain Operator.Under := by
  rw [← List.map_reverse] at hops
  obtain ⟨front, upper, hfront, hmap, _⟩ := List.map_eq_append_iff.mp hops
  obtain ⟨lower, middle, hmiddle, _, hsame⟩ := List.map_eq_append_iff.mp hmap
  have hwaiting : middle = ops.map Waiting.operator := by
    apply List.map_injective_iff.mpr Waiting.token_injective
    rw [hsame, List.map_map]
    rfl
  have hchain := List.isChain_reverse.mpr h
  rw [hfront, hmiddle, hwaiting] at hchain
  exact (List.isChain_map Waiting.operator).mp hchain.left_of_append.right_of_append

theorem filter_opens (stack : List Waiting) :
    (stack.map Waiting.token).filter Token.opens = (opened stack).map .opening := by
  induction stack with
  | nil => rfl
  | cons w stack ih =>
    cases w with
    | operator op => exact ih
    | opening b => exact congrArg (Token.opening b :: ·) ih

theorem filter_isOperator (stack : List Waiting) :
    (stack.map Waiting.token).filter Token.isOperator = (waiting stack).map .operator := by
  induction stack with
  | nil => rfl
  | cons w stack ih =>
    cases w with
    | operator op => exact congrArg (Token.operator op :: ·) ih
    | opening b => exact ih

/-- What waits and the output are the numerals and operators taken: without the positions, they
    are the order so far. -/
theorem output_waiting_perm {ts : List Token} {z : Yard} (h : run {} ts = .ok z) :
    (z.output.toList ++ (waiting z.stack).map Token.operator).Perm (ts.filter Token.hasPlace) := by
  have hyard : (Trail.run {} ts.zipIdx).yard = z := Trail.yard_run ts 0 h
  rw [← hyard, ← Trail.map_fst_row]
  exact map_fst_origins_perm ts

end Yard

/-! ## The whole state -/

/-- What a yard on a stack of tokens holds after the tokens `ts`. The stack has its top first,
    so its reverse is read from the bottom to the top. -/
structure Represents (ts : List Token) (s : TokenYard) : Prop where
  /-- Operators and opening brackets wait, and nothing else. -/
  kinds : ∀ t ∈ s.stack, (∃ op, t = .operator op) ∨ ∃ b, t = .opening b
  /-- The brackets that wait are those without a partner. -/
  brackets : s.stack.reverse.filter Token.opens = unmatched ts
  /-- Operators with no bracket between them rise, and so lie in three layers. -/
  groups : ∀ (below above : List Token) (ops : List Operator),
    s.stack.reverse = below ++ ops.map .operator ++ above →
    ops.IsChain Operator.Under ∧ Layered ops
  /-- With the output, the operators that wait are the numerals and operators taken. -/
  contents : (s.output.toList ++ s.stack.filter Token.isOperator).Perm (ts.filter Token.hasPlace)

/-- Each part from what a run keeps: the agreement with the matcher, the order of the stack and
    the order so far. -/
theorem Yard.represents_tokens {ts : List Token} {z : Yard} (h : Yard.run {} ts = .ok z) :
    Represents ts z.tokens := by
  constructor
  case kinds =>
    intro t ht
    obtain ⟨w, _, rfl⟩ := List.mem_map.mp ht
    cases w with
    | operator op => exact .inl ⟨op, rfl⟩
    | opening b => exact .inr ⟨b, rfl⟩
  case brackets =>
    rw [unmatched_eq _ (matching_run h), ← filter_opens, List.filter_reverse]
    rfl
  case groups =>
    intro below above ops hops
    have hrising : ops.IsChain Operator.Under := (ordered_of_run h).rising hops
    exact ⟨hrising, layered_of_rising hrising⟩
  case contents =>
    show (z.output.toList ++ (z.stack.map Waiting.token).filter Token.isOperator).Perm _
    rw [filter_isOperator]
    exact output_waiting_perm h

/-- **What a yard holds.** The tokens `ts` are taken alike by the yard and by the yard on a
    stack of tokens, whatever follows them, and if no fault ends it, then the stack holds
    operators and opening brackets only; the brackets, from the bottom to the top, are those
    among `ts` that have no partner, in their order; the operators in one group of brackets
    rise, with at most one sum or difference, above it at most one product or quotient, and
    above that any number of powers; and the stack's operators and the output are together
    exactly the numerals and operators of `ts`. -/
theorem represents_run (ts rest : List Token) :
    Yard.arrange (ts ++ rest) = (Yard.run {} ts >>= fun z => z.run rest >>= Yard.finish) ∧
    TokenYard.arrange (ts ++ rest) = Yard.arrange (ts ++ rest) ∧
    TokenYard.run {} ts = (Yard.run {} ts).map Yard.tokens ∧
    ∀ s, TokenYard.run {} ts = .ok s → Represents ts s := by
  have htokens : TokenYard.run {} ts = (Yard.run {} ts).map Yard.tokens := Yard.run_tokens ts {}
  refine ⟨?_, Yard.arrange_tokens _, htokens, fun s hs => ?_⟩
  · rw [Yard.arrange_eq, Yard.run_append]
    cases Yard.run {} ts <;> rfl
  · rw [htokens] at hs
    cases hrun : Yard.run {} ts with
    | error e => rw [hrun] at hs; cases hs
    | ok z =>
      rw [hrun] at hs
      cases hs
      exact Yard.represents_tokens hrun

/-- Two powers wait outside a bracket; within it a power on a product on a difference. The
    square brackets are a pair and have left no trace. -/
theorem represents_run_powers :
    let ts : List Token := [.number "2", .operator .pow, .number "3", .operator .pow,
      .opening .round, .number "1", .operator .sub, .number "4", .operator .mul,
      .opening .square, .number "5", .operator .add, .number "6", .closing .square,
      .operator .pow]
    let stack : List Token := [.operator .pow, .operator .pow, .opening .round,
      .operator .sub, .operator .mul, .operator .pow]
    let output : List Token := [.number "2", .number "3", .number "1", .number "4",
      .number "5", .number "6", .operator .add]
    TokenYard.run {} ts = .ok ⟨output.toArray, stack.reverse⟩ ∧
    unmatched ts = [.opening .round] ∧ stack.filter Token.opens = [.opening .round] ∧
    [Operator.pow, .pow].IsChain Operator.Under ∧
    [Operator.sub, .mul, .pow].IsChain Operator.Under ∧ Layered [.sub, .mul, .pow] ∧
    (output ++ stack.reverse.filter Token.isOperator).Perm (ts.filter Token.hasPlace) := by
  intro ts stack output
  have hrun : TokenYard.run {} ts = .ok ⟨output.toArray, stack.reverse⟩ := by rfl
  obtain ⟨_, _, _, hall⟩ := represents_run ts []
  have h := hall _ hrun
  have hunmatched : unmatched ts = [.opening .round] := by decide
  have hbrackets : stack.filter Token.opens = unmatched ts := h.brackets
  have houter := h.groups [] [.opening .round, .operator .sub, .operator .mul, .operator .pow]
    [.pow, .pow] rfl
  have hinner := h.groups [.operator .pow, .operator .pow, .opening .round] []
    [.sub, .mul, .pow] rfl
  exact ⟨hrun, hunmatched, hbrackets.trans hunmatched, houter.1, hinner.1, hinner.2, h.contents⟩

end Calculator
