import Calculator.Proofs.Conservation
import Calculator.Proofs.Matching

/-!
# Bracket groups

The pairs of brackets in a token list, and the groups they form: two tokens are in one
group when the same innermost pair, or none, stands around both. Whether two tokens are
in one group, and where a group ends, can be told from the tokens between: the brackets
among them match, or match up to the one that ends the group.

Results:

* `Matching.run_frame`, `Matching.run_or_closing`: brackets that were open before are
  neither looked at nor changed, up to the first bracket that closes one of them.
* `Matching.exists_opening`, `Matching.exists_closing`: where an open bracket was opened
  and where it is closed.
* `innermost_iff`: the innermost pair around a token, with matching brackets on both of
  its sides.
* `exists_innermost_iff`: the group of a token ends at the first bracket after it that
  matches none between.
* `sameGroup_iff`: two tokens are in one group exactly when the brackets between match.
-/

namespace Calculator

namespace Matching

theorem run_append (opened : List Bracket) (ts us : List Token) :
    run opened (ts ++ us) = (run opened ts >>= fun next => run next us) := by
  simp [run]

/-- Tokens one list after the other are taken where each list is. -/
theorem run_append_eq_ok_iff {opened result : List Bracket} {ts us : List Token} :
    run opened (ts ++ us) = .ok result ↔
      ∃ now, run opened ts = .ok now ∧ run now us = .ok result := by
  rw [run_append, Except.bind_eq_ok_iff]

theorem run_append_ok {opened next : List Bracket} {ts : List Token} (us : List Token)
    (h : run opened ts = .ok next) : run opened (ts ++ us) = run next us := by
  rw [run_append, h, Except.ok_bind]

/-- Tokens that are taken in the middle of others. -/
theorem exists_run_middle {opened result : List Bracket} {before ts after : List Token}
    (h : run opened (before ++ (ts ++ after)) = .ok result) :
    ∃ now next, run now ts = .ok next := by
  obtain ⟨now, _, hrest⟩ := run_append_eq_ok_iff.mp h
  obtain ⟨next, hnext, _⟩ := run_append_eq_ok_iff.mp hrest
  exact ⟨now, next, hnext⟩

/-- Numerals and operators do not matter. -/
theorem run_hasPlace {t : Token} (h : t.hasPlace = true) (opened : List Bracket)
    (ts : List Token) : run opened (t :: ts) = run opened ts := by
  cases t with
  | number text => rfl
  | operator op => rfl
  | opening b => cases h
  | closing b => cases h
  | invalid text => cases h

/-- A closing bracket that is taken closes the innermost open one. -/
theorem step_closing {opened next : List Bracket} {b : Bracket}
    (h : step opened (.closing b) = .ok next) : opened = b :: next := by
  cases opened with
  | nil => cases h
  | cons a rest =>
    by_cases hab : a = b
    · rw [step, if_pos hab] at h
      cases h
      rw [hab]
    · rw [step, if_neg hab] at h
      cases h

theorem step_closing_self (opened : List Bracket) (b : Bracket) :
    step (b :: opened) (.closing b) = .ok opened := if_pos rfl

/-! ## Brackets that were open before -/

theorem step_frame {opened next : List Bracket} {t : Token} (below : List Bracket)
    (h : step opened t = .ok next) : step (opened ++ below) t = .ok (next ++ below) := by
  cases t with
  | number text => cases h; rfl
  | operator op => cases h; rfl
  | opening b => cases h; rfl
  | closing b =>
    rw [step_closing h, List.cons_append]
    exact step_closing_self _ b
  | invalid text => cases h

theorem run_frame (below : List Bracket) (ts : List Token) : ∀ {opened next : List Bracket},
    run opened ts = .ok next → run (opened ++ below) ts = .ok (next ++ below) := by
  intro opened next h
  exact Except.foldlM_follow (step_frame below) ts h

/-- Matching brackets leave the open ones as they are. -/
theorem run_matched {ts : List Token} (h : run [] ts = .ok []) (opened : List Bracket) :
    run opened ts = .ok opened := run_frame opened ts h

/-- Either the brackets `below` are not touched, or there is a first bracket that closes one
    of them. -/
theorem run_or_closing (below : List Bracket) (ts : List Token) :
    ∀ {above result : List Bracket}, run (above ++ below) ts = .ok result →
      (∃ left, run above ts = .ok left ∧ result = left ++ below) ∨
      ∃ u b v, ts = u ++ .closing b :: v ∧ run above u = .ok [] := by
  induction ts with
  | nil =>
    intro above result h
    cases h
    exact .inl ⟨above, rfl, rfl⟩
  | cons t ts ih =>
    intro above result h
    have hstep : ∀ {next : List Bracket}, step above t = .ok next →
        (∃ left, run above (t :: ts) = .ok left ∧ result = left ++ below) ∨
        ∃ u b v, t :: ts = u ++ .closing b :: v ∧ run above u = .ok [] := by
      intro next hnext
      rw [run_cons, step_frame below hnext, Except.ok_bind] at h
      rcases ih h with ⟨left, hleft, hresult⟩ | ⟨u, b, v, hts, hu⟩
      · refine .inl ⟨left, ?_, hresult⟩
        rw [run_cons, hnext, Except.ok_bind, hleft]
      · refine .inr ⟨t :: u, b, v, by rw [hts]; rfl, ?_⟩
        rw [run_cons, hnext, Except.ok_bind, hu]
    cases t with
    | number text => exact hstep rfl
    | operator op => exact hstep rfl
    | opening b => exact hstep rfl
    | closing b =>
      cases above with
      | nil => exact .inr ⟨[], b, ts, rfl, rfl⟩
      | cons a above =>
        rw [run_cons] at h
        obtain ⟨mid, hmid, _⟩ := Except.bind_eq_ok_iff.mp h
        have hab : a = b := (List.cons.inj (step_closing hmid)).1
        rw [hab] at hstep
        rw [hab]
        exact hstep (step_closing_self above b)
    | invalid text =>
      rw [run_cons] at h
      cases h

/-! ## Partners -/

/-- A bracket that is open at the end was open at the start, and all above it is closed, or
    it was opened on the way, and the brackets after it match. -/
theorem opened_or_opening {b : Bracket} {rest : List Bracket} (ts : List Token) :
    ∀ {opened : List Bracket}, run opened ts = .ok (b :: rest) →
      (∃ above, opened = above ++ b :: rest ∧ run above ts = .ok []) ∨
      ∃ before inner, ts = before ++ .opening b :: inner ∧ run opened before = .ok rest ∧
        run [] inner = .ok [] := by
  induction ts with
  | nil =>
    intro opened h
    cases h
    exact .inl ⟨[], rfl, rfl⟩
  | cons t ts ih =>
    intro opened h
    rw [run_cons] at h
    obtain ⟨next, hnext, hrest⟩ := Except.bind_eq_ok_iff.mp h
    rcases ih hrest with ⟨above, habove, hts⟩ | ⟨before, inner, rfl, hbefore, hinner⟩
    · cases t with
      | number text => cases hnext; exact .inl ⟨above, habove, hts⟩
      | operator op => cases hnext; exact .inl ⟨above, habove, hts⟩
      | opening c =>
        cases hnext
        cases above with
        | nil =>
          cases habove
          exact .inr ⟨[], ts, rfl, rfl, hts⟩
        | cons a above =>
          cases habove
          exact .inl ⟨above, rfl, hts⟩
      | closing c =>
        refine .inl ⟨c :: above, by rw [step_closing hnext, habove]; rfl, ?_⟩
        rw [run_cons, step_closing_self, Except.ok_bind, hts]
      | invalid text => cases hnext
    · refine .inr ⟨t :: before, inner, rfl, ?_, hinner⟩
      rw [run_cons, hnext, Except.ok_bind, hbefore]

/-- The innermost open bracket was opened somewhere, and the brackets after it match. -/
theorem exists_opening {b : Bracket} {rest : List Bracket} {ts : List Token}
    (h : run [] ts = .ok (b :: rest)) :
    ∃ before inner, ts = before ++ .opening b :: inner ∧ run [] before = .ok rest ∧
      run [] inner = .ok [] := by
  rcases opened_or_opening ts h with ⟨above, habove, _⟩ | hopening
  · cases above <;> cases habove
  · exact hopening

/-- An open bracket is closed somewhere, and the brackets before that match. -/
theorem exists_closing {b : Bracket} {below : List Bracket} {ts : List Token}
    (h : run (b :: below) ts = .ok []) :
    ∃ inner after, ts = inner ++ .closing b :: after ∧ run [] inner = .ok [] := by
  have happend : run ([] ++ b :: below) ts = .ok [] := h
  rcases run_or_closing _ ts happend with ⟨left, _, hleft⟩ | ⟨u, c, v, rfl, hu⟩
  · cases left <;> cases hleft
  · rw [run_append_ok _ (run_matched hu (b :: below)), run_cons] at h
    obtain ⟨next, hnext, _⟩ := Except.bind_eq_ok_iff.mp h
    have hbc : b = c := (List.cons.inj (step_closing hnext)).1
    exact ⟨u, v, by rw [hbc], hu⟩

/-- A bracket stays open while the brackets after it match or open more. -/
theorem run_opening_ne_nil {b : Bracket} {m l : List Token} {left : List Bracket}
    (hl : run [] l = .ok left) : run [] (m ++ .opening b :: l) ≠ .ok [] := by
  intro h
  obtain ⟨opened, _, hopened⟩ := run_append_eq_ok_iff.mp h
  have hnil : run ([] ++ b :: opened) l = .ok [] := hopened
  rw [run_frame (b :: opened) l hl] at hnil
  cases left <;> cases hnil

end Matching

/-! ## Pairs and groups -/

/-- The bracket at position `p` and the bracket at position `q` are a pair: of one family,
    and the brackets between them match. -/
def Pair (ts : List Token) (p q : Nat) : Prop :=
  ∃ before b inner after, ts = before ++ .opening b :: (inner ++ .closing b :: after) ∧
    Matching.check inner = .ok () ∧ before.length = p ∧ p + inner.length + 1 = q

/-- Of the pairs around position `i`, that of `p` and `q` opens last. -/
structure Innermost (ts : List Token) (i p q : Nat) : Prop where
  pair : Pair ts p q
  opens : p < i
  closes : i < q
  last : ∀ p' q', Pair ts p' q' → p' < i → i < q' → p' ≤ p

/-- The same innermost pair stands around both positions, or none around either. -/
def SameGroup (ts : List Token) (i m : Nat) : Prop :=
  ∀ p q, Innermost ts i p q ↔ Innermost ts m p q

/-- An item that stands before the end of `c` is in `c`. -/
theorem exists_between {α : Type} {a b c d : List α} {x : α} (h : a ++ x :: b = c ++ d)
    (hlt : a.length < c.length) : ∃ m, c = a ++ x :: m ∧ b = m ++ d := by
  rcases List.append_eq_append_iff.mp h with ⟨m, hc, hb⟩ | ⟨m, ha, _⟩
  · cases m with
    | nil =>
      rw [hc, List.append_nil] at hlt
      omega
    | cons z m =>
      obtain ⟨rfl, htail⟩ := List.cons.inj hb
      exact ⟨m, hc, htail⟩
  · rw [ha, List.length_append] at hlt
    omega

theorem length_append_cons {α : Type} (a b : List α) (x : α) :
    (a ++ x :: b).length = a.length + 1 + b.length := by
  rw [List.length_append, List.length_cons]
  omega

section Around

variable {pre rest : List Token} {t : Token} {p q : Nat}

/-- The pairs around a token, by the tokens before and after it. -/
theorem pair_iff : (Pair (pre ++ t :: rest) p q ∧ p < pre.length ∧ pre.length < q) ↔
    ∃ before b l r after, pre = before ++ .opening b :: l ∧ rest = r ++ .closing b :: after ∧
      Matching.run [] (l ++ t :: r) = .ok [] ∧ before.length = p ∧
      pre.length + 1 + r.length = q := by
  constructor
  · rintro ⟨⟨before, b, inner, after, hts, hinner, rfl, rfl⟩, hopens, hcloses⟩
    obtain ⟨l, rfl, hl⟩ := exists_between hts.symm hopens
    simp only [List.length_append, List.length_cons] at hcloses
    obtain ⟨r, rfl, hr⟩ := exists_between hl.symm (by omega)
    refine ⟨before, b, l, r, after, rfl, hr, Matching.check_eq_ok_iff.mp hinner, rfl, ?_⟩
    simp only [List.length_append, List.length_cons]
    omega
  · rintro ⟨before, b, l, r, after, rfl, rfl, hinner, rfl, rfl⟩
    refine ⟨⟨before, b, l ++ t :: r, after, by simp, Matching.check_eq_ok_iff.mpr hinner, rfl, ?_⟩,
      ?_, ?_⟩ <;> simp only [List.length_append, List.length_cons] <;> omega

/-- The innermost pair around a token: on both sides of the token the brackets match. -/
theorem innermost_iff (ht : t.hasPlace = true) :
    Innermost (pre ++ t :: rest) pre.length p q ↔
      ∃ before b l r after, pre = before ++ .opening b :: l ∧ rest = r ++ .closing b :: after ∧
        Matching.run [] l = .ok [] ∧ Matching.run [] r = .ok [] ∧ before.length = p ∧
        pre.length + 1 + r.length = q := by
  constructor
  · rintro ⟨hpair, hopens, hcloses, hlast⟩
    obtain ⟨before, b, l, r, after, hpre, hrest, hinner, hp, hq⟩ :=
      pair_iff.mp ⟨hpair, hopens, hcloses⟩
    obtain ⟨opened, hl, hr⟩ := Matching.run_append_eq_ok_iff.mp hinner
    rw [Matching.run_hasPlace ht] at hr
    cases opened with
    | nil => exact ⟨before, b, l, r, after, hpre, hrest, hl, hr, hp, hq⟩
    | cons c opened =>
      -- a bracket between the pair and the token is still open, so its pair opens later
      obtain ⟨l₁, l₂, rfl, _, hl₂⟩ := Matching.exists_opening hl
      obtain ⟨r₁, r₂, rfl, hr₁⟩ := Matching.exists_closing hr
      have hwithin : Matching.run [] (l₂ ++ t :: r₁) = .ok [] := by
        rw [Matching.run_append_ok _ hl₂, Matching.run_hasPlace ht, hr₁]
      have hpre' : pre = (before ++ .opening b :: l₁) ++ .opening c :: l₂ := by
        rw [hpre, List.append_assoc]
        rfl
      have hrest' : rest = r₁ ++ .closing c :: (r₂ ++ .closing b :: after) := by
        rw [hrest, List.append_assoc]
        rfl
      obtain ⟨hpair', hopens', hcloses'⟩ :=
        pair_iff.mpr ⟨_, c, l₂, r₁, _, hpre', hrest', hwithin, rfl, rfl⟩
      have hle := hlast _ _ hpair' hopens' hcloses'
      rw [List.length_append, List.length_cons] at hle
      omega
  · rintro ⟨before, b, l, r, after, hpre, hrest, hl, hr, hp, hq⟩
    have hinner : Matching.run [] (l ++ t :: r) = .ok [] := by
      rw [Matching.run_append_ok _ hl, Matching.run_hasPlace ht, hr]
    obtain ⟨hpair, hopens, hcloses⟩ :=
      pair_iff.mpr ⟨before, b, l, r, after, hpre, hrest, hinner, hp, hq⟩
    refine ⟨hpair, hopens, hcloses, fun p' q' hpair' hopens' hcloses' => ?_⟩
    obtain ⟨before', b', l', r', after', hpre', _, hinner', hp', _⟩ :=
      pair_iff.mp ⟨hpair', hopens', hcloses'⟩
    apply Nat.le_of_not_lt
    intro hlt
    rw [hpre] at hpre'
    obtain ⟨m, _, hm⟩ := exists_between hpre' (by omega)
    obtain ⟨left, hleft, _⟩ := Matching.run_append_eq_ok_iff.mp hinner'
    rw [hm] at hl
    exact Matching.run_opening_ne_nil hleft hl

end Around

section Between

variable {pre mid post : List Token} {t t' : Token}

/-- A bracket after a token that matches none between ends the group of the token. -/
theorem exists_innermost_of_closing (ht : t.hasPlace = true) {u after : List Token} {b : Bracket}
    (hmatched : Matching.run [] (pre ++ t :: (u ++ .closing b :: after)) = .ok [])
    (hu : Matching.run [] u = .ok []) : ∃ p,
      Innermost (pre ++ t :: (u ++ .closing b :: after)) pre.length p
        (pre.length + 1 + u.length) := by
  obtain ⟨opened, hpre, hrest⟩ := Matching.run_append_eq_ok_iff.mp hmatched
  rw [Matching.run_hasPlace ht, Matching.run_append_ok _ (Matching.run_matched hu opened),
    Matching.run_cons] at hrest
  obtain ⟨next, hnext, _⟩ := Except.bind_eq_ok_iff.mp hrest
  rw [Matching.step_closing hnext] at hpre
  obtain ⟨before, l, hbefore, _, hl⟩ := Matching.exists_opening hpre
  exact ⟨before.length, (innermost_iff ht).mpr
    ⟨before, b, l, u, after, hbefore, rfl, hl, hu, rfl, rfl⟩⟩

/-- The group of a token ends before another token exactly when there is a closing bracket
    between them that matches none between. -/
theorem exists_innermost_iff (ht : t.hasPlace = true)
    (hmatched : Matching.run [] (pre ++ t :: (mid ++ t' :: post)) = .ok []) :
    (∃ p q, Innermost (pre ++ t :: (mid ++ t' :: post)) pre.length p q ∧
      q < pre.length + 1 + mid.length) ↔
    ∃ u b v, mid = u ++ .closing b :: v ∧ Matching.run [] u = .ok [] := by
  constructor
  · rintro ⟨p, q, hinnermost, hlt⟩
    obtain ⟨before, b, l, r, after, _, hrest, _, hr, _, rfl⟩ := (innermost_iff ht).mp hinnermost
    obtain ⟨v, hv, _⟩ := exists_between hrest.symm (by omega)
    exact ⟨r, b, v, hv, hr⟩
  · rintro ⟨u, b, v, rfl, hu⟩
    rw [List.append_assoc, List.cons_append] at hmatched ⊢
    obtain ⟨p, hinnermost⟩ := exists_innermost_of_closing ht hmatched hu
    refine ⟨p, _, hinnermost, ?_⟩
    rw [List.length_append, List.length_cons]
    omega

/-- The second of two tokens, seen from the front of the list. -/
theorem innermost_second_iff (ht' : t'.hasPlace = true) {p q : Nat} :
    Innermost (pre ++ t :: (mid ++ t' :: post)) (pre.length + 1 + mid.length) p q ↔
      ∃ before b l r after, pre ++ t :: mid = before ++ .opening b :: l ∧
        post = r ++ .closing b :: after ∧ Matching.run [] l = .ok [] ∧
        Matching.run [] r = .ok [] ∧ before.length = p ∧
        pre.length + 1 + mid.length + 1 + r.length = q := by
  have hts : pre ++ t :: (mid ++ t' :: post) = (pre ++ t :: mid) ++ t' :: post := by simp
  rw [hts, ← length_append_cons pre mid t]
  exact innermost_iff ht'

/-- Tokens between which the brackets match are in one group. -/
theorem sameGroup_of_matched (ht : t.hasPlace = true) (ht' : t'.hasPlace = true)
    (hmid : Matching.run [] mid = .ok []) :
    SameGroup (pre ++ t :: (mid ++ t' :: post)) pre.length (pre.length + 1 + mid.length) := by
  intro p q
  rw [innermost_iff ht, innermost_second_iff ht']
  constructor
  · rintro ⟨before, b, l, r, after, rfl, hrest, hl, hr, rfl, rfl⟩
    rcases Nat.lt_trichotomy r.length mid.length with hlt | heq | hgt
    · obtain ⟨v, rfl, _⟩ := exists_between hrest.symm hlt
      rw [Matching.run_append_ok _ hr] at hmid
      cases hmid
    · obtain ⟨_, hcons⟩ := List.append_inj hrest heq.symm
      rw [(List.cons.inj hcons).1] at ht'
      cases ht'
    · obtain ⟨r', rfl, hpost⟩ := exists_between hrest hgt
      rw [Matching.run_append_ok _ hmid, Matching.run_hasPlace ht'] at hr
      refine ⟨before, b, l ++ t :: mid, r', after, by simp, hpost, ?_, hr, rfl, ?_⟩
      · rw [Matching.run_append_ok _ hl, Matching.run_hasPlace ht, hmid]
      · simp only [List.length_append, List.length_cons]
        omega
  · rintro ⟨before, b, l, r, after, hpre, rfl, hl, hr, rfl, rfl⟩
    rcases Nat.lt_trichotomy before.length pre.length with hlt | heq | hgt
    · obtain ⟨l', rfl, rfl⟩ := exists_between hpre.symm hlt
      obtain ⟨opened, hl', hopened⟩ := Matching.run_append_eq_ok_iff.mp hl
      rw [Matching.run_hasPlace ht, Matching.run_matched hmid] at hopened
      cases hopened
      refine ⟨before, b, l', mid ++ t' :: r, after, rfl, by simp, hl', ?_, rfl, ?_⟩
      · rw [Matching.run_append_ok _ hmid, Matching.run_hasPlace ht', hr]
      · simp only [List.length_append, List.length_cons]
        omega
    · obtain ⟨_, hcons⟩ := List.append_inj hpre heq.symm
      rw [(List.cons.inj hcons).1] at ht
      cases ht
    · obtain ⟨m, _, rfl⟩ := exists_between hpre hgt
      exact absurd hmid (Matching.run_opening_ne_nil hl)

/-- Two tokens are in one group exactly when the brackets between them match. -/
theorem sameGroup_iff (ht : t.hasPlace = true) (ht' : t'.hasPlace = true)
    (hmatched : Matching.run [] (pre ++ t :: (mid ++ t' :: post)) = .ok []) :
    SameGroup (pre ++ t :: (mid ++ t' :: post)) pre.length (pre.length + 1 + mid.length) ↔
      Matching.run [] mid = .ok [] := by
  refine ⟨fun hsame => ?_, sameGroup_of_matched ht ht'⟩
  obtain ⟨opened, _, hrest⟩ := Matching.run_append_eq_ok_iff.mp hmatched
  rw [Matching.run_hasPlace ht, Matching.run_append_eq_ok_iff] at hrest
  obtain ⟨now, hnow, hpost⟩ := hrest
  have happend : Matching.run ([] ++ opened) mid = .ok now := hnow
  rcases Matching.run_or_closing opened mid happend with ⟨left, hleft, rfl⟩ | hclosing
  · cases left with
    | nil => exact hleft
    | cons b left =>
      -- a bracket opened between them is open at the second token
      obtain ⟨m, l, rfl, _, hl⟩ := Matching.exists_opening hleft
      rw [Matching.run_hasPlace ht'] at hpost
      obtain ⟨r, after, rfl, hr⟩ := Matching.exists_closing hpost
      have hsplit : pre ++ t :: (m ++ .opening b :: l) = (pre ++ t :: m) ++ .opening b :: l := by
        rw [List.append_assoc, List.cons_append]
      have hsecond := (innermost_second_iff ht').mpr
        ⟨_, b, l, r, after, hsplit, rfl, hl, hr, rfl, rfl⟩
      have hopens := ((hsame _ _).mpr hsecond).opens
      rw [List.length_append, List.length_cons] at hopens
      omega
  · -- the group of the first token ends before the second
    obtain ⟨p, q, hinnermost, hlt⟩ := (exists_innermost_iff ht hmatched).mpr hclosing
    have hcloses := ((hsame p q).mp hinnermost).closes
    omega

end Between

end Calculator
