import Calculator.Session

/-!
# The first use of a session

Of all that was asked of a session before, a reply depends on one thing only: whether some
request has fixed the options, and which one was the first. Every request fixes them but the
question whether they are fixed; a request to set them fixes what it asks for, the others fix
the defaults. From then on nothing changes any more.

Results:

* `run_append`, `length_run`: a session has one reply for each request.
* `after_of_any`, `after_of_not_any`: the session after any requests.
* `run_decided`: every reply of a session, by its place among the requests.
-/

namespace Calculator

namespace Session

/-! ## What fixes the options -/

/-- Whether the options are fixed after the request, whatever was before. -/
def Request.fixes : Request → Bool
  | .isConfigured => false
  | _ => true

/-- The options of a session with these requests: those that the first request that fixes the
    options asks for, and the defaults if it asks for none. -/
def decided (rs : List Request) : Options :=
  match rs.find? Request.fixes with
  | some (.configure asked) => asked
  | _ => {}

/-- The reply to a request in a session whose options are `options` from first to last;
    `early` says that no request before it has fixed them. -/
def Request.answer (options : Options) (early : Bool) : Request → Reply
  | .configure asked => if early then .accepted else .refused asked
  | .options => .options options
  | .isConfigured => .configured (!early)
  | .calculate source => .calculated (Calculation.run options source)
  | .value source => .value ((Calculation.run options source).map Outcome.value)

theorem Request.fixes_eq_false_iff {r : Request} : r.fixes = false ↔ r = .isConfigured := by
  cases r <;> simp [fixes]

theorem decided_cons_isConfigured (rs : List Request) :
    decided (.isConfigured :: rs) = decided rs := rfl

/-- Questions in front do not decide anything. -/
theorem decided_append {before : List Request} (h : before.any Request.fixes = false)
    (rs : List Request) : decided (before ++ rs) = decided rs := by
  induction before with
  | nil => rfl
  | cons r before ih =>
    simp only [List.any_cons, Bool.or_eq_false_iff] at h
    rw [Request.fixes_eq_false_iff.mp h.1, List.cons_append, decided_cons_isConfigured]
    exact ih h.2

/-! ## The session after requests -/

/-- The session after requests. -/
def after (s : Session) (rs : List Request) : Session := rs.foldl (fun s r => (s.step r).2) s

theorem after_append (s : Session) (rs us : List Request) :
    s.after (rs ++ us) = (s.after rs).after us := List.foldl_append

theorem after_fixed (options : Options) (rs : List Request) :
    after ⟨some options⟩ rs = ⟨some options⟩ := by
  induction rs with
  | nil => rfl
  | cons r rs ih =>
    show after (step ⟨some options⟩ r).2 rs = _
    rw [step_fixed, ih]

/-- The first request that fixes the options fixes those that are decided. -/
theorem step_of_fixes {r : Request} (h : r.fixes = true) (rs : List Request) :
    (step {} r).2 = ⟨some (decided (r :: rs))⟩ := by
  cases r with
  | isConfigured => cases h
  | configure asked => rfl
  | options => rfl
  | calculate source => rfl
  | value source => rfl

/-- Once a request has fixed the options they are the decided ones, whatever comes later. -/
theorem after_of_any {before : List Request} (h : before.any Request.fixes = true)
    (later : List Request) : after {} before = ⟨some (decided (before ++ later))⟩ := by
  induction before with
  | nil => cases h
  | cons r before ih =>
    show after (step {} r).2 before = _
    cases hr : r.fixes with
    | true => rw [step_of_fixes hr (before ++ later), after_fixed]; rfl
    | false =>
      rw [List.any_cons, hr, Bool.false_or] at h
      rw [Request.fixes_eq_false_iff.mp hr]
      exact ih h

/-- Questions alone leave a session as it was. -/
theorem after_of_not_any {before : List Request} (h : before.any Request.fixes = false) :
    after {} before = {} := by
  induction before with
  | nil => rfl
  | cons r before ih =>
    simp only [List.any_cons, Bool.or_eq_false_iff] at h
    rw [Request.fixes_eq_false_iff.mp h.1]
    exact ih h.2

theorem isConfigured_after (before : List Request) :
    (after {} before).isConfigured = before.any Request.fixes := by
  cases h : before.any Request.fixes with
  | true => rw [after_of_any h []]; rfl
  | false => rw [after_of_not_any h]; rfl

/-! ## The replies -/

theorem length_run (rs : List Request) : ∀ s : Session, (s.run rs).length = rs.length := by
  induction rs with
  | nil => intro s; rfl
  | cons r rs ih => intro s; simp [run, ih]

theorem run_append (rs us : List Request) :
    ∀ s : Session, s.run (rs ++ us) = s.run rs ++ (s.after rs).run us := by
  induction rs with
  | nil => intro s; rfl
  | cons r rs ih => intro s; simp [run, after, ih]

/-- The reply to a request is that of the session after the requests before it. -/
theorem getElem?_run (before : List Request) (r : Request) (later : List Request) :
    (run {} (before ++ r :: later))[before.length]? =
      some (((after {} before).step r).1, (after {} (before ++ [r])).isConfigured) := by
  rw [run_append, List.getElem?_append_right (Nat.le_of_eq (length_run before {})), length_run,
    Nat.sub_self, after_append]
  rfl

theorem reply_eq_answer (before : List Request) (r : Request) (later : List Request) :
    ((after {} before).step r).1 =
      r.answer (decided (before ++ r :: later)) (!before.any Request.fixes) := by
  cases h : before.any Request.fixes with
  | true =>
    rw [after_of_any h (r :: later)]
    cases r <;> rfl
  | false =>
    rw [after_of_not_any h, decided_append h]
    cases r <;> rfl

/-- A request to set options that are fixed changes nothing. -/
theorem step_configure_of_any {before : List Request} (h : before.any Request.fixes = true)
    (asked : Options) :
    (after {} before).step (.configure asked) = (.refused asked, after {} before) := by
  rw [after_of_any h []]
  rfl

/-- **The first use fixes the options of a session.** They are those of the first request to
    set them, if only questions come before it, and the defaults otherwise. Every reply is
    the one that these options give: the options themselves, a calculation with them, or its
    value. A request to set options is accepted only if nothing but questions comes before
    it; otherwise it is refused and changes nothing. And the options are fixed from the first
    request on that is no question, whether or not it asked for a calculation that fails. -/
theorem run_decided (rs : List Request) :
    (∀ before asked later, rs = before ++ .configure asked :: later →
      (∀ r ∈ before, r = .isConfigured) → decided rs = asked) ∧
    ((∀ before asked later, rs = before ++ .configure asked :: later →
      ∃ r ∈ before, r ≠ .isConfigured) → decided rs = {}) ∧
    (run {} rs).length = rs.length ∧
    ∀ before r later, rs = before ++ r :: later →
      (run {} rs)[before.length]? = some (r.answer (decided rs) (!before.any Request.fixes),
        (before ++ [r]).any Request.fixes) ∧
      ∀ asked, r = .configure asked → before.any Request.fixes = true →
        ((after {} before).step r).2 = after {} before := by
  refine ⟨?_, fun h => ?_, length_run rs {}, ?_⟩
  · rintro before asked later rfl hbefore
    have hquestions : before.any Request.fixes = false := by
      rw [List.any_eq_false]
      intro r hr
      rw [hbefore r hr]
      decide
    rw [decided_append hquestions]
    rfl
  · unfold decided
    split
    · next asked hfirst =>
      -- the first request that fixes the options stands behind questions alone
      obtain ⟨_, before, later, rfl, hquestions⟩ := List.find?_eq_some_iff_append.mp hfirst
      obtain ⟨r, hr, hne⟩ := h before asked later rfl
      have hr' : r.fixes = false := by simpa using hquestions r hr
      exact absurd (Request.fixes_eq_false_iff.mp hr') hne
    · rfl
  · rintro before r later rfl
    refine ⟨?_, ?_⟩
    · rw [getElem?_run, reply_eq_answer before r later, isConfigured_after]
    · rintro asked rfl hfixed
      rw [step_configure_of_any hfixed]

/-- A question, a calculation that fails, and two requests to set other options. -/
theorem run_decided_failure :
    let other : Options := { limits := ⟨5, 1⟩ }
    let before : List Request := [.isConfigured, .calculate "1/0"]
    let rs : List Request := before ++ [.configure other, .value "1+2", .configure {}, .options]
    decided rs = {} ∧
    (run {} rs)[0]? = some (.configured false, false) ∧
    (run {} rs)[1]? = some (.calculated (Calculation.run {} "1/0"), true) ∧
    (run {} rs)[2]? = some (.refused other, true) ∧
    ((after {} before).step (.configure other)).2 = after {} before ∧
    (run {} rs)[3]? = some (.value ((Calculation.run {} "1+2").map Outcome.value), true) ∧
    (run {} rs)[5]? = some (.options {}, true) := by
  intro other before rs
  obtain ⟨_, _, _, hreply⟩ := run_decided rs
  have hquestion := hreply [] .isConfigured _ rfl
  have hfailure := hreply [.isConfigured] (.calculate "1/0") _ rfl
  have hrefused := hreply before (.configure other) _ rfl
  have hvalue := hreply (before ++ [.configure other]) (.value "1+2")
    [.configure {}, .options] rfl
  have hoptions := hreply (before ++ [.configure other, .value "1+2", .configure {}]) .options
    [] rfl
  exact ⟨rfl, hquestion.1, hfailure.1, hrefused.1, hrefused.2 other rfl rfl, hvalue.1, hoptions.1⟩

end Session

end Calculator
