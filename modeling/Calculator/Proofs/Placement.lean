import Calculator.Proofs.Groups
import Calculator.Proofs.Origins

/-!
# Where operators are placed

An operator waits until a token of its own group ends the wait: an operator to which it
yields, or the bracket that closes the group. What is above it on the stack does not
change that. A bracket above it belongs to a group within, and keeps everything below it
in place until it is closed; an operator above it, in its own group, is one to which it
did not yield, and such an operator yields to everything that the lower one yields to.

Results:

* `Operator.yieldsTo_of_not_yieldsTo`: an operator that did not make another one yield
  itself yields to whatever the other one yields to.
* `Trail.Guarded.step`, `Trail.stack_step_of_endsWait`: one token, which leaves a waiting
  operator in place or ends its wait.
* `Trail.not_mem_stack_run_iff`: an operator waits until the first token of its group that
  ends the wait.
* `precedes_iff`: which of two tokens comes first in the postfix order.
-/

namespace Calculator

namespace Operator

theorem yieldsTo_iff {op next : Operator} : op.yieldsTo next = true ↔
    next.precedence < op.precedence ∨
      next.precedence = op.precedence ∧ next.associativity = .left := by
  rw [yieldsTo, isLeft, Bool.or_eq_true, Bool.and_eq_true, decide_eq_true_iff, beq_iff_eq,
    beq_iff_eq, eq_comm (a := op.precedence)]

/-- What an operator did not yield to yields wherever the operator does. -/
theorem yieldsTo_of_not_yieldsTo {op x next : Operator} (hx : op.yieldsTo x = false)
    (hop : op.yieldsTo next = true) : x.yieldsTo next = true := by
  have hx' : ¬ op.yieldsTo x = true := by rw [hx]; decide
  rw [yieldsTo_iff] at hop hx' ⊢
  have hle : op.precedence ≤ x.precedence := Nat.le_of_not_lt fun h => hx' (.inl h)
  rcases hop with hlt | ⟨heq, hleft⟩
  · exact .inl (Nat.lt_of_lt_of_le hlt hle)
  · rw [heq]
    rcases Nat.lt_or_eq_of_le hle with hlt | hsame
    · exact .inl hlt
    · exact .inr ⟨hsame, hleft⟩

/-- Whether a token ends the wait of an operator of its group. -/
def endsWait (op : Operator) : Token → Bool
  | .closing _ => true
  | .operator next => op.yieldsTo next
  | _ => false

end Operator

/-- With the brackets `opened` open since `op` was read, one of the tokens is in the group
    of `op` and ends its wait. -/
def Released (op : Operator) (opened : List Bracket) (ts : List Token) : Prop :=
  ∃ u t v, ts = u ++ t :: v ∧ Matching.run opened u = .ok [] ∧ op.endsWait t = true

theorem not_released_nil {op : Operator} {opened : List Bracket} : ¬ Released op opened [] := by
  rintro ⟨u, t, v, hts, _, _⟩
  cases u <;> cases hts

theorem released_cons {op : Operator} {opened : List Bracket} {t : Token} {ts : List Token} :
    Released op opened (t :: ts) ↔ (opened = [] ∧ op.endsWait t = true) ∨
      ∃ next, Matching.step opened t = .ok next ∧ Released op next ts := by
  constructor
  · rintro ⟨u, x, v, hts, hu, hx⟩
    cases u with
    | nil =>
      cases hts
      cases hu
      exact .inl ⟨rfl, hx⟩
    | cons y u =>
      cases hts
      rw [Matching.run_cons] at hu
      obtain ⟨next, hnext, hu⟩ := Except.bind_eq_ok_iff.mp hu
      exact .inr ⟨next, hnext, u, x, v, rfl, hu, hx⟩
  · rintro (⟨rfl, ht⟩ | ⟨next, hnext, u, x, v, rfl, hu, hx⟩)
    · exact ⟨[], t, ts, rfl, rfl, ht⟩
    · refine ⟨t :: u, x, v, rfl, ?_, hx⟩
      rw [Matching.run_cons, hnext, Except.ok_bind, hu]

namespace Trail

/-! ## What is above a waiting operator -/

/-- The open brackets on a stack, the innermost first. -/
def opened (stack : List (Waiting × Nat)) : List Bracket := Yard.opened (stack.map Prod.fst)

theorem opened_dropWhile {done : Waiting → Bool} (hdone : ∀ b, done (.opening b) = false)
    (stack : List (Waiting × Nat)) :
    opened (stack.dropWhile fun w => done w.1) = opened stack := by
  have hmap : (stack.map Prod.fst).dropWhile done =
      (stack.dropWhile fun w => done w.1).map Prod.fst := List.dropWhile_map
  rw [opened, ← hmap, Yard.opened_dropWhile hdone]
  rfl

/-- Below the operators on top lies the innermost open bracket. -/
theorem dropWhile_isOperator {b : Bracket} {rest : List Bracket} {stack : List (Waiting × Nat)}
    (h : opened stack = b :: rest) : ∃ j below, opened below = rest ∧
      stack.dropWhile (fun w => w.1.isOperator) = (.opening b, j) :: below := by
  induction stack with
  | nil => cases h
  | cons w stack ih =>
    obtain ⟨w, j⟩ := w
    cases w with
    | operator x => exact ih h
    | opening a =>
      cases h
      exact ⟨j, stack, rfl, rfl⟩

/-- Above `op` on the stack: the operators of its own group are such that `op` does not
    yield to them. -/
def Guarded (op : Operator) : List (Waiting × Nat) → Prop
  | [] => True
  | (.operator x, _) :: above => (opened above = [] → op.yieldsTo x = false) ∧ Guarded op above
  | (.opening _, _) :: above => Guarded op above

theorem Guarded.tail {op : Operator} {w : Waiting × Nat} {above : List (Waiting × Nat)}
    (h : Guarded op (w :: above)) : Guarded op above := by
  obtain ⟨w, j⟩ := w
  cases w with
  | operator x => exact h.2
  | opening b => exact h

theorem Guarded.dropWhile {op : Operator} {above : List (Waiting × Nat)} (h : Guarded op above)
    (done : Waiting × Nat → Bool) : Guarded op (above.dropWhile done) := by
  induction above with
  | nil => exact h
  | cons w above ih =>
    rw [List.dropWhile_cons]
    split
    · exact ih h.tail
    · exact h

/-- Whatever releases the operators to which `op` does not yield releases all that is above
    `op`, once the brackets above are closed. -/
theorem Guarded.dropWhile_eq_nil {op : Operator} {done : Waiting → Bool}
    (hdone : ∀ x, op.yieldsTo x = false → done (.operator x) = true)
    {above : List (Waiting × Nat)} (h : Guarded op above) (hopened : opened above = []) :
    above.dropWhile (fun w => done w.1) = [] := by
  induction above with
  | nil => rfl
  | cons w above ih =>
    obtain ⟨w, j⟩ := w
    cases w with
    | opening b => cases hopened
    | operator x =>
      rw [List.dropWhile_cons, if_pos (hdone x (h.1 hopened))]
      exact ih h.2 hopened

section Wait

variable {op : Operator} {i : Nat} {above base : List (Waiting × Nat)}

/-- An open bracket keeps what is below it in place. -/
theorem dropWhile_of_opened {done : Waiting → Bool} (hdone : ∀ b, done (.opening b) = false)
    (hopened : opened above ≠ []) (below : List (Waiting × Nat)) :
    (above ++ below).dropWhile (fun w => done w.1) =
      above.dropWhile (fun w => done w.1) ++ below := by
  have hne : above.dropWhile (fun w => done w.1) ≠ [] := by
    intro hnil
    apply hopened
    rw [← opened_dropWhile hdone, hnil]
    rfl
  rw [List.dropWhile_append, if_neg (by simpa using hne)]

/-- An operator that is not released keeps what is below it in place. -/
theorem dropWhile_of_not_done {done : Waiting → Bool} (hop : done (.operator op) = false) :
    (above ++ (.operator op, i) :: base).dropWhile (fun w => done w.1) =
      above.dropWhile (fun w => done w.1) ++ (.operator op, i) :: base := by
  rw [List.dropWhile_append]
  split
  next hnil =>
    rw [List.isEmpty_iff.mp hnil, List.dropWhile_cons, hop]
    rfl
  next => rfl

/-- An operator that is released goes with all that is above it. -/
theorem Guarded.dropWhile_of_done {done : Waiting → Bool}
    (hdone : ∀ x, op.yieldsTo x = false → done (.operator x) = true) (h : Guarded op above)
    (hopened : opened above = []) (hop : done (.operator op) = true) :
    (above ++ (.operator op, i) :: base).dropWhile (fun w => done w.1) =
      base.dropWhile (fun w => done w.1) := by
  rw [List.dropWhile_append, h.dropWhile_eq_nil hdone hopened, List.dropWhile_cons, hop]
  rfl

/-- A token that does not end the wait leaves the operator in place. -/
theorem Guarded.step {s : Trail} {t : Token} {below next : List Bracket} (k : Nat)
    (h : Guarded op above) (hstack : s.stack = above ++ (.operator op, i) :: base)
    (hnext : Matching.step (opened above ++ below) t = .ok next)
    (hends : ¬ (opened above = [] ∧ op.endsWait t = true)) :
    ∃ above', (s.step (t, k)).stack = above' ++ (.operator op, i) :: base ∧ Guarded op above' ∧
      Matching.step (opened above) t = .ok (opened above') := by
  cases t with
  | number text => exact ⟨above, hstack, h, rfl⟩
  | operator x =>
    have hopened : opened (above.dropWhile fun w => w.1.yieldsTo x) = opened above :=
      opened_dropWhile (fun _ => rfl) above
    have hyields : opened above = [] → op.yieldsTo x = false := fun hnil =>
      Bool.eq_false_iff.mpr fun hyield => hends ⟨hnil, hyield⟩
    have hdrop : s.stack.dropWhile (fun w => w.1.yieldsTo x) =
        above.dropWhile (fun w => w.1.yieldsTo x) ++ (.operator op, i) :: base := by
      rw [hstack]
      by_cases hnil : opened above = []
      · exact dropWhile_of_not_done (hyields hnil)
      · exact dropWhile_of_opened (fun _ => rfl) hnil _
    refine ⟨(.operator x, k) :: above.dropWhile fun w => w.1.yieldsTo x, ?_,
      ⟨?_, h.dropWhile _⟩, ?_⟩
    · exact congrArg _ hdrop
    · rwa [hopened]
    · exact congrArg _ hopened.symm
  | opening b => exact ⟨(.opening b, k) :: above, congrArg _ hstack, h, rfl⟩
  | closing b =>
    cases hopened : opened above with
    | nil => exact absurd ⟨hopened, rfl⟩ hends
    | cons a rest =>
      rw [hopened] at hnext
      have hab : a = b := (List.cons.inj (Matching.step_closing hnext)).1
      obtain ⟨j, above', hrest, hdrop⟩ := dropWhile_isOperator hopened
      have hguarded : Guarded op ((.opening a, j) :: above') := hdrop ▸ h.dropWhile _
      refine ⟨above', ?_, hguarded, ?_⟩
      · have hne : opened above ≠ [] := by rw [hopened]; exact List.cons_ne_nil _ _
        have hbelow : s.stack.dropWhile (fun w => w.1.isOperator) =
            (.opening a, j) :: above' ++ (.operator op, i) :: base := by
          rw [hstack, ← hdrop]
          exact dropWhile_of_opened (fun _ => rfl) hne _
        exact congrArg List.tail hbelow
      · rw [hab, hrest]
        exact Matching.step_closing_self rest b
  | invalid text => cases hnext

/-- A token that ends the wait leaves nothing of what is above the operator. -/
theorem stack_step_of_endsWait {s : Trail} {t : Token} {k : Nat} (h : Guarded op above)
    (hstack : s.stack = above ++ (.operator op, i) :: base) (hopened : opened above = [])
    (hends : op.endsWait t = true) {w : Waiting × Nat} (hw : w ∈ (s.step (t, k)).stack) :
    w ∈ base ∨ w.2 = k := by
  cases t with
  | operator x =>
    have hstep : (s.step (.operator x, k)).stack =
        (.operator x, k) :: base.dropWhile (fun w => w.1.yieldsTo x) := by
      rw [Trail.step, release, hstack]
      exact congrArg _ (h.dropWhile_of_done
        (fun y hy => Operator.yieldsTo_of_not_yieldsTo hy hends) hopened hends)
    rw [hstep] at hw
    rcases List.mem_cons.mp hw with rfl | hw
    · exact .inr rfl
    · exact .inl ((List.dropWhile_sublist _).subset hw)
  | closing b =>
    have hstep : (s.step (.closing b, k)).stack =
        (base.dropWhile fun w => w.1.isOperator).tail := by
      rw [Trail.step, release, hstack]
      exact congrArg List.tail (h.dropWhile_of_done (fun _ _ => rfl) hopened rfl)
    rw [hstep] at hw
    exact .inl ((List.dropWhile_sublist _).subset (List.mem_of_mem_tail hw))
  | number text => cases hends
  | opening b => cases hends
  | invalid text => cases hends

end Wait

/-! ## How long an operator waits -/

theorem mem_stack_step {s : Trail} {t : Token} {k : Nat} {w : Waiting × Nat}
    (h : w ∈ (s.step (t, k)).stack) : w ∈ s.stack ∨ w.2 = k := by
  cases t with
  | number text => exact .inl h
  | operator op =>
    rcases List.mem_cons.mp h with rfl | h
    · exact .inr rfl
    · exact .inl ((List.dropWhile_sublist _).subset h)
  | opening b =>
    rcases List.mem_cons.mp h with rfl | h
    · exact .inr rfl
    · exact .inl h
  | closing b => exact .inl ((List.dropWhile_sublist _).subset (List.mem_of_mem_tail h))
  | invalid text => exact .inl h

/-- What waits after a run waited before or was read in it. -/
theorem mem_stack_run {w : Waiting × Nat} (ts : List Token) : ∀ {s : Trail} (k : Nat),
    w ∈ (s.run (ts.zipIdx k)).stack → w ∈ s.stack ∨ k ≤ w.2 ∧ w.2 < k + ts.length := by
  induction ts with
  | nil => exact fun k h => .inl h
  | cons t ts ih =>
    intro s k h
    rw [List.zipIdx_cons, run_cons] at h
    rw [List.length_cons]
    rcases ih (k + 1) h with hmem | hread
    · rcases mem_stack_step hmem with hmem | rfl
      · exact .inl hmem
      · exact .inr (by omega)
    · exact .inr (by omega)

/-- An operator waits until the first token of its group that ends the wait. -/
theorem not_mem_stack_run_iff {op : Operator} {i : Nat} {base : List (Waiting × Nat)}
    {below now : List Bracket} (hbase : ∀ w ∈ base, w.2 ≠ i) (ts : List Token) :
    ∀ {s : Trail} {above : List (Waiting × Nat)} (k : Nat), i < k → Guarded op above →
      s.stack = above ++ (.operator op, i) :: base →
      Matching.run (opened above ++ below) ts = .ok now →
      ((.operator op, i) ∉ (s.run (ts.zipIdx k)).stack ↔ Released op (opened above) ts) := by
  induction ts with
  | nil =>
    intro s above k _ _ hstack _
    have hmem : (.operator op, i) ∈ s.stack := by rw [hstack]; simp
    exact ⟨fun h => absurd hmem h, fun h => absurd h not_released_nil⟩
  | cons t ts ih =>
    intro s above k hik hguarded hstack hrun
    rw [Matching.run_cons] at hrun
    obtain ⟨next, hnext, hrun⟩ := Except.bind_eq_ok_iff.mp hrun
    rw [List.zipIdx_cons, run_cons, released_cons]
    by_cases hends : opened above = [] ∧ op.endsWait t = true
    · -- the wait ends here, and the position is not read again
      refine ⟨fun _ => .inl hends, fun _ hmem => ?_⟩
      rcases mem_stack_run ts (k + 1) hmem with hmem | ⟨hle, _⟩
      · rcases stack_step_of_endsWait hguarded hstack hends.1 hends.2 hmem with hmem | heq
        · exact hbase _ hmem rfl
        · exact Nat.ne_of_lt hik heq
      · exact Nat.not_succ_le_self i (Nat.le_trans (Nat.le_succ_of_le hik) hle)
    · obtain ⟨above', hstack', hguarded', hnext'⟩ := hguarded.step k hstack hnext hends
      have hbelow := Matching.step_frame below hnext'
      rw [hnext] at hbelow
      cases hbelow
      rw [ih (k + 1) (Nat.lt_succ_of_lt hik) hguarded' hstack' hrun, hnext']
      simp [hends]

end Trail

/-! ## The order of two tokens -/

section Between

variable {pre mid post : List Token} {op : Operator} {t : Token}

/-- An operator comes out before a later token exactly when its wait ends with that token or
    before it. -/
theorem precedes_iff_released (ht : t.hasPlace = true)
    (hmatched : Matching.run [] (pre ++ .operator op :: (mid ++ t :: post)) = .ok []) :
    Precedes (pre ++ .operator op :: (mid ++ t :: post)) pre.length (pre.length + 1 + mid.length) ↔
      Released op [] (mid ++ [t]) := by
  have hsplit : pre ++ .operator op :: (mid ++ t :: post) =
      (pre ++ .operator op :: mid) ++ t :: post := by simp
  have hpre : ∀ w ∈ ((Trail.run {} pre.zipIdx).release (Waiting.yieldsTo op)).stack,
      w.2 ≠ pre.length := by
    intro w hw
    rcases Trail.mem_stack_run pre 0 ((List.dropWhile_sublist _).subset hw) with hnil | ⟨_, hlt⟩
    · cases hnil
    · omega
  have hmid : ∃ below now, Matching.run below (mid ++ [t]) = .ok now := by
    have hmiddle : Matching.run [] ((pre ++ [.operator op]) ++ ((mid ++ [t]) ++ post)) =
        .ok [] := by simpa using hmatched
    exact Matching.exists_run_middle hmiddle
  obtain ⟨below, now, hnow⟩ := hmid
  have hguarded : Trail.Guarded op [] := trivial
  rw [hsplit, ← length_append_cons pre mid (.operator op),
    precedes_iff_not_waiting (u := .operator op) ht rfl (by simp), List.append_assoc,
    List.cons_append, Trail.run_zipIdx, Trail.operator_mem_pending]
  exact Trail.not_mem_stack_run_iff hpre _ _ (Nat.lt_succ_self _) hguarded rfl hnow

/-- The wait ends with the group, before the later token, or with an operator of the group. -/
theorem released_iff (ht : t.hasPlace = true) : Released op [] (mid ++ [t]) ↔
    (∃ u b v, mid = u ++ .closing b :: v ∧ Matching.run [] u = .ok []) ∨
    ∃ u next v, mid ++ [t] = u ++ .operator next :: v ∧ Matching.run [] u = .ok [] ∧
      op.yieldsTo next = true := by
  constructor
  · rintro ⟨u, x, v, hmid, hu, hx⟩
    cases x with
    | operator next => exact .inr ⟨u, next, v, hmid, hu, hx⟩
    | closing b =>
      -- the later token is not a bracket, so this one stands before it
      cases v with
      | nil =>
        obtain ⟨_, hlast⟩ := List.append_inj' hmid rfl
        cases hlast
        cases ht
      | cons y v =>
        have hlength := congrArg List.length hmid
        simp only [List.length_append, List.length_cons, List.length_nil] at hlength
        obtain ⟨w, hw, _⟩ := exists_between hmid.symm (by omega)
        exact .inl ⟨u, b, w, hw, hu⟩
    | number text => cases hx
    | opening b => cases hx
    | invalid text => cases hx
  · rintro (⟨u, b, v, rfl, hu⟩ | ⟨u, next, v, hmid, hu, hyields⟩)
    · exact ⟨u, .closing b, v ++ [t], by simp, hu, rfl⟩
    · exact ⟨u, .operator next, v, hmid, hu, hyields⟩

/-- The operators of one group, up to the later token. -/
theorem exists_sameGroup_iff {P : Operator → Prop}
    (hmatched : Matching.run [] (pre ++ .operator op :: (mid ++ t :: post)) = .ok []) :
    (∃ m next, pre.length < m ∧ m ≤ pre.length + 1 + mid.length ∧
      (pre ++ .operator op :: (mid ++ t :: post))[m]? = some (.operator next) ∧
      SameGroup (pre ++ .operator op :: (mid ++ t :: post)) pre.length m ∧ P next) ↔
    ∃ u next v, mid ++ [t] = u ++ .operator next :: v ∧ Matching.run [] u = .ok [] ∧ P next := by
  have hsplit : mid ++ t :: post = (mid ++ [t]) ++ post := by simp
  constructor
  · rintro ⟨m, next, hlt, hle, hnext, hsame, hP⟩
    obtain ⟨before, after, hts, rfl⟩ := exists_split hnext
    obtain ⟨u, rfl, hu⟩ := exists_between hts hlt
    rw [length_append_cons] at hle hsame
    rw [hu] at hsame hmatched
    have hmid : u.length < (mid ++ [t]).length := by
      rw [List.length_append, List.length_singleton]
      omega
    obtain ⟨v, hv, _⟩ := exists_between (hu.symm.trans hsplit) hmid
    exact ⟨u, next, v, hv, (sameGroup_iff rfl rfl hmatched).mp hsame, hP⟩
  · rintro ⟨u, next, v, hmid, hu, hP⟩
    have hlength := congrArg List.length hmid
    simp only [List.length_append, List.length_cons, List.length_nil] at hlength
    rw [hsplit, hmid, List.append_assoc, List.cons_append]
    refine ⟨pre.length + 1 + u.length, next, by omega, by omega, ?_,
      sameGroup_of_matched rfl rfl hu, hP⟩
    rw [← length_append_cons pre u (.operator op)]
    simp

end Between

/-- **Where operators are placed.** Let tokens be brought into postfix order; `origins` tells
    for each token of the postfix order where it was read, by a run that is at every moment
    that of the yard. An operator comes out before a
    numeral or operator that was read later exactly when its group was closed before that, or
    when up to there an operator of its group was read that binds less strongly, or as
    strongly and groups to the left. -/
theorem precedes_iff {ts out : List Token} (h : Yard.arrange ts = .ok out) :
    (∀ pre rest, ts = pre ++ rest → Yard.run {} pre = .ok (Trail.run {} pre.zipIdx).yard) ∧
    (origins ts).map Prod.fst = out ∧
    (∀ t i, (t, i) ∈ origins ts ↔ ts[i]? = some t ∧ t.hasPlace = true) ∧
    ((origins ts).map Prod.snd).Nodup ∧
    ∀ i j op t, i < j → ts[i]? = some (.operator op) → ts[j]? = some t → t.hasPlace = true →
      (Precedes ts i j ↔
        (∃ p q, Innermost ts i p q ∧ q < j) ∨
        ∃ m next, i < m ∧ m ≤ j ∧ ts[m]? = some (.operator next) ∧ SameGroup ts i m ∧
          (next.precedence < op.precedence ∨
            next.precedence = op.precedence ∧ next.associativity = .left)) := by
  refine ⟨?_, map_fst_origins h, fun t i => mem_origins, nodup_origins ts, ?_⟩
  · rintro pre rest rfl
    exact yard_run_of_arrange h
  intro i j op t hij hop hj ht
  have hmatched : Matching.run [] ts = .ok [] :=
    Matching.check_eq_ok_iff.mp (Yard.exists_arrange_iff.mp ⟨out, h⟩)
  obtain ⟨pre, rest, rfl, rfl⟩ := exists_split hop
  obtain ⟨before, post, hts, rfl⟩ := exists_split hj
  obtain ⟨mid, rfl, rfl⟩ := exists_between hts hij
  rw [length_append_cons, precedes_iff_released ht hmatched, released_iff ht,
    exists_innermost_iff rfl hmatched, exists_sameGroup_iff hmatched]
  simp only [Operator.yieldsTo_iff]

/-- The first of two powers in a row comes out before the product after them. -/
theorem precedes_iff_powers :
    Yard.arrange [.operator .pow, .operator .pow, .number "2", .operator .mul] =
      .ok [.number "2", .operator .pow, .operator .pow, .operator .mul] ∧
    ((∃ p q,
        Innermost [.operator .pow, .operator .pow, .number "2", .operator .mul] 0 p q ∧ q < 3) ∨
      ∃ m next, 0 < m ∧ m ≤ 3 ∧
        [Token.operator .pow, .operator .pow, .number "2", .operator .mul][m]? =
          some (.operator next) ∧
        SameGroup [.operator .pow, .operator .pow, .number "2", .operator .mul] 0 m ∧
        (next.precedence < Operator.pow.precedence ∨
          next.precedence = Operator.pow.precedence ∧ next.associativity = .left)) := by
  have harrange : Yard.arrange [.operator .pow, .operator .pow, .number "2", .operator .mul] =
      .ok [.number "2", .operator .pow, .operator .pow, .operator .mul] := by rfl
  obtain ⟨_, _, _, _, hiff⟩ := precedes_iff harrange
  exact ⟨harrange, (hiff 0 3 .pow (.operator .mul) (by decide) rfl rfl rfl).mp (by decide)⟩

end Calculator
