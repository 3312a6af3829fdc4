import Calculator.Proofs.Conservation

/-!
# Where the tokens of a postfix order come from

A postfix order may hold the same operator many times. To say which of them was read
where, the yard is run on tokens that carry their positions: the positions are never
looked at, and without them the run is that of the yard.

At every moment the tokens read so far have an order, in which they would come out if
nothing came after: first the output, then the operators that wait, from the top. Each
token only takes a place in this order, between the output and the operators that still
wait; nothing that is in it changes its order any more.

Results:

* `Trail.yard_run`: without the positions, the run is that of the yard.
* `Trail.row_step`: a token takes its place before the operators that still wait.
* `map_fst_origins`, `origins_perm`: the postfix order with the positions of its tokens.
* `precedes_iff_not_waiting`: an earlier token comes out before a later one exactly when
  it does not wait any more once the later one is read.
* `arrange_conserves`: the postfix order is a rearrangement of the numerals and operators,
  in which no numeral falls behind a token that was read after it.
-/

namespace Calculator

/-! ## Runs with positions -/

/-- A yard whose tokens carry the positions at which they were read. -/
structure Trail where
  output : List (Token × Nat) := []
  stack : List (Waiting × Nat) := []

namespace Trail

/-- The yard without the positions. -/
def yard (s : Trail) : Yard := ⟨(s.output.map Prod.fst).toArray, s.stack.map Prod.fst⟩

/-- Moves waiting tokens to the output, from the top, up to the first that is not `done`. -/
def release (s : Trail) (done : Waiting → Bool) : Trail where
  output := s.output ++ (s.stack.takeWhile fun w => done w.1).map fun w => (w.1.token, w.2)
  stack := s.stack.dropWhile fun w => done w.1

/-- Takes one token with its position. -/
def step (s : Trail) : Token × Nat → Trail
  | (.number text, i) => { s with output := s.output ++ [(.number text, i)] }
  | (.operator op, i) =>
    let cleared := s.release (Waiting.yieldsTo op)
    { cleared with stack := (.operator op, i) :: cleared.stack }
  | (.opening b, i) => { s with stack := (.opening b, i) :: s.stack }
  | (.closing _, _) =>
    let cleared := s.release Waiting.isOperator
    { cleared with stack := cleared.stack.tail }
  | (.invalid _, _) => s

/-- Takes tokens from left to right. -/
def run (s : Trail) (xs : List (Token × Nat)) : Trail := xs.foldl step s

theorem run_append (s : Trail) (xs ys : List (Token × Nat)) :
    s.run (xs ++ ys) = (s.run xs).run ys := List.foldl_append

theorem run_cons (s : Trail) (x : Token × Nat) (xs : List (Token × Nat)) :
    s.run (x :: xs) = (s.step x).run xs := rfl

/-- A token within a list is taken with its position. -/
theorem run_zipIdx (s : Trail) (pre rest : List Token) (t : Token) :
    s.run (pre ++ t :: rest).zipIdx =
      ((s.run pre.zipIdx).step (t, pre.length)).run (rest.zipIdx (pre.length + 1)) := by
  rw [List.zipIdx_append, run_append, Nat.zero_add, List.zipIdx_cons, run_cons]

theorem yard_release (s : Trail) (done : Waiting → Bool) :
    (s.release done).yard = s.yard.release done := by
  have hstack : (s.stack.map Prod.fst).dropWhile done =
      (s.stack.dropWhile fun w => done w.1).map Prod.fst := List.dropWhile_map
  have hreleased : Yard.released done (s.stack.map Prod.fst) =
      ((s.stack.takeWhile fun w => done w.1).map fun w => (w.1.token, w.2)).map Prod.fst := by
    rw [Yard.released, List.takeWhile_map, List.map_map, List.map_map]
    rfl
  unfold yard Yard.release
  rw [Yard.mk.injEq]
  refine ⟨?_, hstack.symm⟩
  rw [hreleased, release, List.map_append]
  simp

/-- Wherever the yard takes a token, the run with positions follows. -/
theorem yard_step {s : Trail} {t : Token} {z : Yard} (h : s.yard.step t = .ok z) (i : Nat) :
    (s.step (t, i)).yard = z := by
  cases t with
  | number text =>
    cases h
    simp [step, yard]
  | operator op =>
    cases h
    rw [← yard_release]
    rfl
  | opening b =>
    cases h
    rfl
  | closing b =>
    obtain ⟨rest, hdrop, rfl⟩ := Yard.step_closing h
    have hstack : (s.release Waiting.isOperator).stack.map Prod.fst = .opening b :: rest := by
      rw [← hdrop]
      exact congrArg Yard.stack (yard_release s Waiting.isOperator)
    have htail : (s.release Waiting.isOperator).stack.tail.map Prod.fst = rest := by
      rw [List.map_tail, hstack]
      rfl
    rw [← yard_release, ← htail]
    rfl
  | invalid text => cases h

theorem yard_run (ts : List Token) : ∀ {s : Trail} {z : Yard} (k : Nat),
    s.yard.run ts = .ok z → (s.run (ts.zipIdx k)).yard = z := by
  induction ts with
  | nil =>
    intro s z k h
    exact Except.ok.inj h
  | cons t ts ih =>
    intro s z k h
    rw [Yard.run_cons] at h
    obtain ⟨mid, hmid, hz⟩ := Except.bind_eq_ok_iff.mp h
    rw [List.zipIdx_cons, run_cons]
    apply ih
    rwa [yard_step hmid]

/-! ## The order so far -/

/-- The operators that wait, from the top. -/
def pending (stack : List (Waiting × Nat)) : List (Token × Nat) :=
  stack.filterMap fun w => w.1.operator?.map fun op => (.operator op, w.2)

/-- The tokens read so far in the order in which they come out if nothing comes after. -/
def row (s : Trail) : List (Token × Nat) := s.output ++ pending s.stack

theorem pending_append (stack below : List (Waiting × Nat)) :
    pending (stack ++ below) = pending stack ++ pending below := List.filterMap_append

theorem pending_operator (op : Operator) (i : Nat) (stack : List (Waiting × Nat)) :
    pending ((.operator op, i) :: stack) = (.operator op, i) :: pending stack := rfl

theorem pending_opening (b : Bracket) (i : Nat) (stack : List (Waiting × Nat)) :
    pending ((.opening b, i) :: stack) = pending stack := rfl

theorem operator_mem_pending {op : Operator} {i : Nat} {stack : List (Waiting × Nat)} :
    (.operator op, i) ∈ pending stack ↔ (.operator op, i) ∈ stack := by
  unfold pending
  rw [List.mem_filterMap]
  constructor
  · rintro ⟨⟨w, j⟩, hw, hx⟩
    cases w with
    | operator x => cases hx; exact hw
    | opening b => cases hx
  · intro hmem
    exact ⟨_, hmem, rfl⟩

/-- What is released are operators. -/
theorem pending_takeWhile {done : Waiting → Bool} (hdone : ∀ b, done (.opening b) = false)
    (stack : List (Waiting × Nat)) :
    pending (stack.takeWhile fun w => done w.1) =
      (stack.takeWhile fun w => done w.1).map fun w => (w.1.token, w.2) := by
  induction stack with
  | nil => rfl
  | cons w stack ih =>
    obtain ⟨w, i⟩ := w
    rw [List.takeWhile_cons]
    cases w with
    | opening b => rw [hdone]; rfl
    | operator op =>
      split
      · rw [pending_operator, ih]
        rfl
      · rfl

/-- Releasing operators does not change the order. -/
theorem row_release {done : Waiting → Bool} (hdone : ∀ b, done (.opening b) = false)
    (s : Trail) : (s.release done).row = s.row := by
  unfold row
  rw [release]
  simp only
  rw [← pending_takeWhile hdone, List.append_assoc, ← pending_append,
    List.takeWhile_append_dropWhile]

/-- A numeral or operator takes its place, and after it come the operators that still wait. -/
theorem row_step {t : Token} (ht : t.hasPlace = true) (s : Trail) (i : Nat) :
    ∃ before after, s.row = before ++ after ∧ (s.step (t, i)).row = before ++ (t, i) :: after ∧
      ∀ x : Token × Nat, x.2 ≠ i → (x ∈ pending (s.step (t, i)).stack ↔ x ∈ after) := by
  cases t with
  | number text =>
    refine ⟨s.output, pending s.stack, rfl, ?_, fun _ _ => Iff.rfl⟩
    rw [step, row, List.append_assoc, List.singleton_append]
  | operator op =>
    refine ⟨(s.release (Waiting.yieldsTo op)).output,
      pending (s.release (Waiting.yieldsTo op)).stack, ?_, rfl, fun x hx => ?_⟩
    · exact (row_release (fun _ => rfl) s).symm
    · rw [step]
      simp only
      rw [pending_operator, List.mem_cons]
      exact ⟨fun h => h.resolve_left fun heq => hx (by rw [heq]), .inr⟩
  | opening b => cases ht
  | closing b => cases ht
  | invalid text => cases ht

/-- Brackets take no place. -/
theorem row_step_of_not_hasPlace {t : Token} (ht : t.hasPlace = false) (s : Trail) (i : Nat) :
    (s.step (t, i)).row = s.row := by
  cases t with
  | number text => cases ht
  | operator op => cases ht
  | opening b => rfl
  | closing b =>
    have hrow : (s.release Waiting.isOperator).row = s.row := row_release (fun _ => rfl) s
    have hhead := List.head?_dropWhile_not (fun w : Waiting × Nat => w.1.isOperator) s.stack
    have htail : pending (s.release Waiting.isOperator).stack.tail =
        pending (s.release Waiting.isOperator).stack := by
      rw [release]
      simp only
      cases hdrop : s.stack.dropWhile fun w => w.1.isOperator with
      | nil => rfl
      | cons w stack =>
        obtain ⟨w, j⟩ := w
        rw [hdrop] at hhead
        cases w with
        | operator op => cases hhead
        | opening a => rw [pending_opening]; rfl
    rw [← hrow, step, row, row]
    simp only
    rw [htail]
  | invalid text => rfl

/-- What has an order keeps it. -/
theorem row_sublist_run (xs : List (Token × Nat)) : ∀ s : Trail, s.row.Sublist (s.run xs).row := by
  induction xs with
  | nil => exact fun s => List.Sublist.refl _
  | cons x xs ih =>
    intro s
    obtain ⟨t, i⟩ := x
    rw [run_cons]
    refine List.Sublist.trans ?_ (ih _)
    cases ht : t.hasPlace with
    | true =>
      obtain ⟨before, after, hrow, hstep, _⟩ := row_step ht s i
      rw [hrow, hstep]
      exact (List.sublist_cons_self _ _).append_left before
    | false => simp only [row_step_of_not_hasPlace ht, List.Sublist.refl]

/-- Exactly the numerals and operators take a place. -/
theorem row_run_perm (xs : List (Token × Nat)) : ∀ s : Trail,
    (s.run xs).row.Perm (s.row ++ xs.filter fun x => x.1.hasPlace) := by
  induction xs with
  | nil => exact fun s => .of_eq (List.append_nil _).symm
  | cons x xs ih =>
    intro s
    obtain ⟨t, i⟩ := x
    rw [run_cons, List.filter_cons]
    refine (ih _).trans ?_
    cases ht : t.hasPlace with
    | true =>
      obtain ⟨before, after, hrow, hstep, _⟩ := row_step ht s i
      rw [hrow, hstep, if_pos rfl, List.append_assoc, List.append_assoc]
      exact List.perm_middle.symm.append_left before
    | false =>
      rw [row_step_of_not_hasPlace ht]
      rfl

end Trail

/-! ## Origins -/

/-- The postfix order of tokens, each with the position at which it was read. -/
def origins (ts : List Token) : List (Token × Nat) := (Trail.run {} ts.zipIdx).row

/-- In the postfix order the token from position `i` comes before the token from position `j`. -/
def Precedes (ts : List Token) (i j : Nat) : Prop :=
  [i, j].Sublist ((origins ts).map Prod.snd)

instance (ts : List Token) (i j : Nat) : Decidable (Precedes ts i j) :=
  inferInstanceAs (Decidable ([i, j].Sublist _))

/-- At every moment, the run with positions is that of the yard. -/
theorem yard_run_of_arrange {pre rest out : List Token}
    (h : Yard.arrange (pre ++ rest) = .ok out) :
    Yard.run {} pre = .ok (Trail.run {} pre.zipIdx).yard := by
  rw [Yard.arrange_eq, Yard.run_append] at h
  obtain ⟨_, hrun, _⟩ := Except.bind_eq_ok_iff.mp h
  obtain ⟨y, hy, _⟩ := Except.bind_eq_ok_iff.mp hrun
  have hyard : (Trail.run {} pre.zipIdx).yard = y := Trail.yard_run pre 0 hy
  rw [hyard, hy]

/-- Without the positions it is the postfix order. -/
theorem map_fst_origins {ts out : List Token} (h : Yard.arrange ts = .ok out) :
    (origins ts).map Prod.fst = out := by
  obtain ⟨z, hz, rfl, hstack⟩ := Yard.exists_run_of_arrange h
  have hyard : (Trail.run {} ts.zipIdx).yard = z := Trail.yard_run ts 0 hz
  rw [← hyard, ← Trail.yard_release] at hstack ⊢
  have hnil : ((Trail.run {} ts.zipIdx).release Waiting.isOperator).stack = [] :=
    List.map_eq_nil_iff.mp hstack
  have hrow : ((Trail.run {} ts.zipIdx).release Waiting.isOperator).row = origins ts :=
    Trail.row_release (fun _ => rfl) _
  rw [Trail.row, hnil] at hrow
  rw [← hrow]
  simp [Trail.yard, Trail.pending]

theorem origins_perm (ts : List Token) :
    (origins ts).Perm (ts.zipIdx.filter fun x => x.1.hasPlace) :=
  Trail.row_run_perm ts.zipIdx {}

theorem mem_origins {ts : List Token} {t : Token} {i : Nat} :
    (t, i) ∈ origins ts ↔ ts[i]? = some t ∧ t.hasPlace = true := by
  rw [(origins_perm ts).mem_iff, List.mem_filter, List.mem_zipIdx_iff_getElem?]

/-- Every position has at most one place. -/
theorem nodup_origins (ts : List Token) : ((origins ts).map Prod.snd).Nodup := by
  rw [((origins_perm ts).map Prod.snd).nodup_iff]
  refine List.Nodup.sublist (List.filter_sublist.map Prod.snd) ?_
  rw [List.zipIdx_map_snd]
  exact List.nodup_range'

/-! ## Order -/

theorem not_sublist_of_nodup {l : List Nat} (hl : l.Nodup) {i j : Nat} (h : [i, j].Sublist l) :
    ¬ [j, i].Sublist l := by
  induction l with
  | nil => cases h
  | cons a l ih =>
    obtain ⟨ha, hl⟩ := List.nodup_cons.mp hl
    intro h'
    cases h with
    | cons _ h =>
      cases h' with
      | cons _ h' => exact ih hl h h'
      | cons_cons _ h' => exact ha (h.subset (by simp))
    | cons_cons _ h =>
      cases h' with
      | cons _ h' => exact ha (h'.subset (by simp))
      | cons_cons _ h' => exact ha (h.subset (by simp))

/-- An earlier token comes out before a later one exactly when it does not wait any more once
    the later one is read. -/
theorem precedes_iff_not_waiting {pre post : List Token} {t u : Token} {i : Nat}
    (ht : t.hasPlace = true) (hu : u.hasPlace = true) (hi : pre[i]? = some u) :
    Precedes (pre ++ t :: post) i pre.length ↔
      (u, i) ∉ Trail.pending (Trail.run {} (pre ++ [t]).zipIdx).stack := by
  have hpre : Trail.run {} (pre ++ [t]).zipIdx =
      (Trail.run {} pre.zipIdx).step (t, pre.length) := Trail.run_zipIdx {} pre [] t
  obtain ⟨before, after, hrow, hstep, hafter⟩ :=
    Trail.row_step ht (Trail.run {} pre.zipIdx) pre.length
  have hlt : i < pre.length := (List.getElem?_eq_some_iff.mp hi).1
  have hsub : (before ++ (t, pre.length) :: after).Sublist (origins (pre ++ t :: post)) := by
    rw [← hstep, origins, Trail.run_zipIdx]
    exact Trail.row_sublist_run _ _
  have hmem : (u, i) ∈ before ++ after := by
    rw [← hrow]
    exact mem_origins.mpr ⟨hi, hu⟩
  rw [hpre, hafter _ (Nat.ne_of_lt hlt)]
  constructor
  · intro hprec hwait
    refine not_sublist_of_nodup (nodup_origins _) hprec ?_
    have hpair : [(t, pre.length), (u, i)].Sublist ((t, pre.length) :: after) :=
      (List.singleton_sublist.mpr hwait).cons_cons _
    exact ((hpair.trans (List.sublist_append_right before _)).trans hsub).map Prod.snd
  · intro hwait
    have hbefore : (u, i) ∈ before := (List.mem_append.mp hmem).resolve_right hwait
    have hpair : ([(u, i)] ++ [(t, pre.length)]).Sublist (before ++ (t, pre.length) :: after) :=
      (List.singleton_sublist.mpr hbefore).append ((List.nil_sublist after).cons_cons _)
    exact (hpair.trans hsub).map Prod.snd

/-! ## What is kept -/

theorem exists_split {α : Type} {l : List α} {i : Nat} {x : α} (h : l[i]? = some x) :
    ∃ a b, l = a ++ x :: b ∧ a.length = i := by
  obtain ⟨hlt, hx⟩ := List.getElem?_eq_some_iff.mp h
  refine ⟨l.take i, l.drop (i + 1), ?_, List.length_take_of_le (Nat.le_of_lt hlt)⟩
  rw [← hx, ← List.drop_eq_getElem_cons hlt, List.take_append_drop]

/-- Numerals do not wait. -/
theorem Trail.number_not_mem_pending (text : String) (i : Nat) (stack : List (Waiting × Nat)) :
    (.number text, i) ∉ Trail.pending stack := by
  intro h
  obtain ⟨⟨w, j⟩, _, hw⟩ := List.mem_filterMap.mp h
  cases w with
  | operator op => cases hw
  | opening b => cases hw

/-- A numeral comes out before every token that is read after it. -/
theorem precedes_of_number {ts : List Token} {i j : Nat} {text : String} {t : Token} (hij : i < j)
    (hi : ts[i]? = some (.number text)) (hj : ts[j]? = some t) (ht : t.hasPlace = true) :
    Precedes ts i j := by
  obtain ⟨pre, post, rfl, rfl⟩ := exists_split hj
  have hpre : pre[i]? = some (.number text) := by rwa [List.getElem?_append_left hij] at hi
  exact (precedes_iff_not_waiting ht rfl hpre).mpr (Trail.number_not_mem_pending text i _)

/-- Exactly the numerals and operators have an order. -/
theorem map_fst_origins_perm (ts : List Token) :
    ((origins ts).map Prod.fst).Perm (ts.filter Token.hasPlace) := by
  have hperm := (origins_perm ts).map Prod.fst
  have hfilter : (ts.zipIdx.filter fun x => x.1.hasPlace).map Prod.fst =
      ts.filter Token.hasPlace := by
    have hmap := List.filter_map (f := Prod.fst) (p := Token.hasPlace) (l := ts.zipIdx)
    rw [List.zipIdx_map_fst] at hmap
    exact hmap.symm
  rwa [hfilter] at hperm

/-- Brackets apart, the postfix order has the same tokens. -/
theorem arrange_perm {ts out : List Token} (h : Yard.arrange ts = .ok out) :
    out.Perm (ts.filter Token.hasPlace) := by
  rw [← map_fst_origins h]
  exact map_fst_origins_perm ts

/-- **Tokens are conserved.** The postfix order holds numerals and operators only, and it is a
    rearrangement of those of the tokens, with the numerals in their order. With each token
    at the position where it was read (`origins`, by a run that is at every moment that of the
    yard), every numeral comes before each numeral or operator that was read after it. -/
theorem arrange_conserves {ts out : List Token} (h : Yard.arrange ts = .ok out) :
    (∀ t ∈ out, (∃ text, t = .number text) ∨ ∃ op, t = .operator op) ∧
    out.Perm (ts.filter Token.hasPlace) ∧
    out.length = (ts.filter Token.hasPlace).length ∧
    Token.numerals out = Token.numerals ts ∧
    (∀ pre rest, ts = pre ++ rest → Yard.run {} pre = .ok (Trail.run {} pre.zipIdx).yard) ∧
    (origins ts).map Prod.fst = out ∧
    (∀ t i, (t, i) ∈ origins ts ↔ ts[i]? = some t ∧ t.hasPlace = true) ∧
    ((origins ts).map Prod.snd).Nodup ∧
    ∀ i j text t, i < j → ts[i]? = some (.number text) → ts[j]? = some t → t.hasPlace = true →
      Precedes ts i j := by
  refine ⟨fun t ht => ?_, arrange_perm h, (arrange_perm h).length_eq, Yard.numerals_arrange h, ?_,
    map_fst_origins h, fun t i => mem_origins, nodup_origins ts, ?_⟩
  · exact Token.hasPlace_iff.mp (Yard.hasPlace_arrange h t ht)
  · rintro pre rest rfl
    exact yard_run_of_arrange h
  · exact fun i j text t => precedes_of_number

/-- The first of two equal operators comes out first, the last token moves before another
    operator, and the numerals before it stay before it. -/
theorem arrange_conserves_powers :
    let ts : List Token := [.number "1", .operator .pow, .opening .round, .number "2",
      .closing .round, .operator .add, .operator .pow]
    let out : List Token := [.number "1", .number "2", .operator .pow, .operator .pow,
      .operator .add]
    Yard.arrange ts = .ok out ∧ out.Perm (ts.filter Token.hasPlace) ∧
    Token.numerals out = Token.numerals ts ∧ (origins ts).map Prod.snd = [0, 3, 1, 6, 5] ∧
    Precedes ts 0 3 ∧ Precedes ts 0 1 ∧ Precedes ts 3 6 := by
  intro ts out
  have harrange : Yard.arrange ts = .ok out := by rfl
  obtain ⟨_, hperm, _, hnumerals, _, _, _, _, hprecedes⟩ := arrange_conserves harrange
  exact ⟨harrange, hperm, hnumerals, by decide, hprecedes 0 3 "1" _ (by decide) rfl rfl rfl,
    hprecedes 0 1 "1" _ (by decide) rfl rfl rfl, hprecedes 3 6 "2" _ (by decide) rfl rfl rfl⟩

end Calculator
