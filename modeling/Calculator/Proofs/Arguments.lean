import Calculator.Command.Arguments
import Calculator.Proofs.Basic

/-!
# One more argument

Names are told from expressions by their first dash. So an argument behind others is taken
as the expression when it begins with no dash, is the dash alone, or comes after a double
dash; else it is taken for a name, and whatever becomes of it, it is not the expression.

Results:

* `Word.ofArgument_eq_plain`: what looks like an expression.
* `Progress.trailing_foldlM`: arguments trail exactly after a double dash among them.
* `parse_append_expression`, `parse_append_separator`, `parse_append_hyphenated`,
  `parse_append_unknown`: what the last argument does to what the others ask for.
-/

namespace Calculator.Command

/-- The argument begins with a dash and goes on: it looks like a name. -/
def Hyphenated (argument : String) : Prop :=
  ∃ c cs, argument.toList = '-' :: c :: cs

/-! ## Words -/

namespace Word

theorem ofArgument_eq_plain {argument : String} (h : ¬Hyphenated argument) :
    ofArgument argument = .plain argument := by
  unfold ofArgument
  split
  · next hchars => exact absurd ⟨_, _, hchars⟩ h
  · next hchars => exact absurd ⟨_, _, hchars⟩ h
  · next hchars => exact absurd ⟨_, _, hchars⟩ h
  · rfl

theorem ofArgument_ne_plain {argument : String} (h : Hyphenated argument) (text : String) :
    ofArgument argument ≠ .plain text := by
  obtain ⟨c, cs, hchars⟩ := h
  unfold ofArgument
  rw [hchars]
  split <;> simp_all

theorem ofArgument_eq_separator_iff {argument : String} :
    ofArgument argument = .separator ↔ argument = "--" := by
  constructor
  · intro h
    unfold ofArgument at h
    split at h
    · next hchars => exact String.toList_inj.mp hchars
    · cases h
    · cases h
    · cases h
  · rintro rfl
    rfl

/-- After one dash only the first letter counts. -/
theorem ofArgument_short {argument : String} {c : Char} {cs : List Char}
    (h : argument.toList = '-' :: c :: cs) (hc : c ≠ '-') : ofArgument argument = .short c := by
  unfold ofArgument
  rw [h]
  split <;> simp_all

end Word

/-! ## Names leave the expression alone -/

theorem Arguments.expression_set {a b : Arguments} {p : Parameter} {value : String}
    (h : a.set p value = .ok b) : b.expression = a.expression := by
  cases p with
  | config =>
    simp only [set, setConfig] at h
    split at h
    · cases h
    · split at h
      · cases h
      · cases h
        rfl
  | format =>
    simp only [set, setFormat] at h
    split at h
    · cases h
    · split at h
      · cases h
      · split at h
        · cases h
          rfl
        · cases h
  | level =>
    simp only [set, setLevel] at h
    split at h
    · cases h
    · split at h
      · cases h
        rfl
      · cases h

theorem Arguments.expression_turnOn {a b : Arguments} {s : Switch} (h : a.turnOn s = .ok b) :
    b.expression = a.expression := by
  cases s with
  | tokens =>
    simp only [turnOn] at h
    split at h
    · cases h
    · cases h
      rfl
  | ordered =>
    simp only [turnOn] at h
    split at h
    · cases h
    · cases h
      rfl

namespace Progress

/-- The expression, and whether a double dash was passed, are the same. -/
structure SameExpression (p q : Progress) : Prop where
  expression : q.found.expression = p.found.expression
  trailing : q.trailing = p.trailing

theorem settle_of_pending_eq_none {p : Progress} (h : p.pending = none) : p.settle = .ok p := by
  rw [settle, h]

/-- A double dash does not bear on the pending value. -/
theorem settle_trailing (p : Progress) (trailing : Bool) :
    ({ p with trailing } : Progress).settle = p.settle.map fun q => { q with trailing } := by
  obtain ⟨found, pending, _⟩ := p
  cases pending with
  | none => rfl
  | some value =>
    obtain ⟨parameter, given⟩ := value
    cases given with
    | none => rfl
    | some text =>
      show (found.set parameter text >>= _) = Except.map _ (found.set parameter text >>= _)
      cases found.set parameter text <;> rfl

theorem settle_eq_ok {p q : Progress} (h : p.settle = .ok q) :
    q.pending = none ∧ SameExpression p q := by
  unfold settle at h
  split at h
  · next hpending =>
    cases h
    exact ⟨hpending, rfl, rfl⟩
  · cases h
  · obtain ⟨found, hset, hq⟩ := Except.bind_eq_ok_iff.mp h
    cases hq
    exact ⟨rfl, Arguments.expression_set hset, rfl⟩

theorem takeName_eq_ok {p q : Progress} {name : Name} (h : p.takeName name = .ok q) :
    SameExpression p q := by
  obtain ⟨settled, hsettle, hname⟩ := Except.bind_eq_ok_iff.mp h
  obtain ⟨_, hexpression, htrailing⟩ := settle_eq_ok (Except.mapError_eq_ok_iff.mp hsettle)
  cases name with
  | parameter parameter =>
    cases hname
    exact ⟨hexpression, htrailing⟩
  | switch s =>
    obtain ⟨found, hfound, hq⟩ := Except.bind_eq_ok_iff.mp hname
    cases hq
    have hswitch := Arguments.expression_turnOn (Except.mapError_eq_ok_iff.mp hfound)
    exact ⟨hswitch.trans hexpression, htrailing⟩
  | help => cases hname
  | version => cases hname

theorem takeAttached_eq_ok {p q : Progress} {name : Name} {value : String}
    (h : p.takeAttached name value = .ok q) : SameExpression p q := by
  cases name with
  | parameter parameter =>
    obtain ⟨settled, hsettle, hrest⟩ := Except.bind_eq_ok_iff.mp h
    obtain ⟨_, hexpression, htrailing⟩ := settle_eq_ok hsettle
    obtain ⟨found, hset, hq⟩ := Except.bind_eq_ok_iff.mp hrest
    cases hq
    exact ⟨(Arguments.expression_set hset).trans hexpression, htrailing⟩
  | switch s => cases h
  | help => cases h
  | version => cases h

/-- What looks like a name is not the expression, unless a double dash was passed. -/
theorem take_hyphenated {p q : Progress} {argument : String} (hp : p.trailing = false)
    (hargument : Hyphenated argument) (h : p.take argument = .ok q) :
    q.found.expression = p.found.expression := by
  unfold take at h
  rw [hp, if_neg Bool.false_ne_true] at h
  split at h
  · cases h
    rfl
  · split at h
    · cases h
    · exact (takeName_eq_ok h).expression
    · exact (takeAttached_eq_ok (Except.mapError_eq_ok_iff.mp h)).expression
  · split at h
    · cases h
    · exact (takeName_eq_ok h).expression
  · next hword => exact absurd hword (Word.ofArgument_ne_plain hargument _)

/-! ## Double dashes -/

theorem trailing_takeExpression {p q : Progress} {argument : String}
    (h : p.takeExpression argument = .ok q) : q.trailing = p.trailing := by
  unfold takeExpression at h
  split at h
  · cases h
  · obtain ⟨settled, hsettle, hq⟩ := Except.bind_eq_ok_iff.mp h
    cases hq
    exact (settle_eq_ok hsettle).2.trailing

theorem trailing_take {p q : Progress} {argument : String} (h : p.take argument = .ok q) :
    q.trailing = true ↔ p.trailing = true ∨ argument = "--" := by
  unfold take at h
  split at h
  · next htrailing =>
    rw [trailing_takeExpression (Except.mapError_eq_ok_iff.mp h)]
    simp [htrailing]
  · rw [← Word.ofArgument_eq_separator_iff]
    split at h
    · next hword =>
      cases h
      simp [hword]
    · next hword =>
      rw [hword]
      split at h
      · cases h
      · simp [(takeName_eq_ok h).trailing]
      · simp [(takeAttached_eq_ok (Except.mapError_eq_ok_iff.mp h)).trailing]
    · next hword =>
      rw [hword]
      split at h
      · cases h
      · simp [(takeName_eq_ok h).trailing]
    · next hword =>
      rw [hword]
      have hplain := Except.mapError_eq_ok_iff.mp h
      unfold takePlain at hplain
      split at hplain
      · cases hplain
        simp
      · simp [trailing_takeExpression hplain]

/-- Arguments trail exactly after a double dash among them. -/
theorem trailing_foldlM {q : Progress} (arguments : List String) : ∀ p : Progress,
    arguments.foldlM take p = .ok q →
      (q.trailing = true ↔ p.trailing = true ∨ "--" ∈ arguments) := by
  induction arguments with
  | nil =>
    intro p h
    cases h
    simp
  | cons argument arguments ih =>
    intro p h
    obtain ⟨next, htake, hrest⟩ := Except.bind_eq_ok_iff.mp h
    rw [ih next hrest, trailing_take htake, List.mem_cons, or_assoc, @eq_comm _ argument]

theorem trailing_eq_false {p : Progress} {arguments : List String}
    (h : arguments.foldlM take {} = .ok p) (hnone : "--" ∉ arguments) : p.trailing = false := by
  rw [← Bool.not_eq_true, trailing_foldlM arguments {} h]
  simp [hnone]

/-! ## Taking an expression -/

theorem takeExpression_of_settle {p q : Progress} {argument : String}
    (hexpression : p.found.expression = none) (h : p.settle = .ok q) :
    p.takeExpression argument =
      .ok { q with found := { q.found with expression := some argument } } := by
  rw [takeExpression, hexpression, if_neg (by simp), h]
  rfl

/-- With every value judged or ready to be, a plain or trailing argument is the expression. -/
theorem take_expression {p q : Progress} {argument : String}
    (hexpression : p.found.expression = none) (h : p.settle = .ok q)
    (hargument : Hyphenated argument → p.trailing = true) :
    p.take argument = .ok { q with found := { q.found with expression := some argument } } := by
  unfold take
  by_cases htrailing : p.trailing = true
  · rw [if_pos htrailing, takeExpression_of_settle hexpression h]
    rfl
  · have hword := Word.ofArgument_eq_plain fun hhyphen => htrailing (hargument hhyphen)
    rw [if_neg htrailing, hword]
    simp only [takePlain]
    split
    · next hpending =>
      rw [settle, hpending] at h
      cases h
    · rw [takeExpression_of_settle hexpression h]
      rfl

end Progress

/-! ## All arguments and one more -/

namespace Arguments

theorem parse_eq_ok_iff {arguments : List String} {a : Arguments} :
    parse arguments = .ok a ↔
      ∃ p q, arguments.foldlM Progress.take {} = .ok p ∧ p.settle = .ok q ∧ q.found = a := by
  constructor
  · intro h
    obtain ⟨p, hfold, hrest⟩ := Except.bind_eq_ok_iff.mp h
    obtain ⟨q, hsettle, hfound⟩ := Except.bind_eq_ok_iff.mp hrest
    cases hfound
    exact ⟨p, q, hfold, Except.mapError_eq_ok_iff.mp hsettle, rfl⟩
  · rintro ⟨p, q, hfold, hsettle, rfl⟩
    rw [parse, hfold, Except.ok_bind, hsettle]
    rfl

theorem foldlM_append_singleton {arguments : List String} {p : Progress}
    (h : arguments.foldlM Progress.take {} = .ok p) (argument : String) :
    (arguments ++ [argument]).foldlM Progress.take {} = p.take argument := by
  rw [List.foldlM_append, h, Except.ok_bind, List.foldlM_cons]
  cases p.take argument <;> rfl

section

variable {arguments : List String} {argument : String} {a : Arguments}

/-- An argument that does not look like a name, or comes after a double dash, is the
    expression. -/
theorem parse_append_expression (h : parse arguments = .ok a) (hexpression : a.expression = none)
    (hargument : Hyphenated argument → "--" ∈ arguments) :
    parse (arguments ++ [argument]) = .ok { a with expression := some argument } := by
  obtain ⟨p, q, hfold, hsettle, rfl⟩ := parse_eq_ok_iff.mp h
  obtain ⟨hpending, hsame⟩ := Progress.settle_eq_ok hsettle
  have htrailing := Progress.trailing_foldlM arguments {} hfold
  have htake := Progress.take_expression (hsame.expression.symm.trans hexpression) hsettle
    fun hhyphen => htrailing.mpr (.inr (hargument hhyphen))
  exact parse_eq_ok_iff.mpr ⟨_, _, (foldlM_append_singleton hfold argument).trans htake,
    Progress.settle_of_pending_eq_none hpending, rfl⟩

/-- The first double dash asks for nothing itself. -/
theorem parse_append_separator (h : parse arguments = .ok a) (hnone : "--" ∉ arguments) :
    parse (arguments ++ ["--"]) = .ok a := by
  obtain ⟨p, q, hfold, hsettle, rfl⟩ := parse_eq_ok_iff.mp h
  have htake : p.take "--" = .ok { p with trailing := true } := by
    rw [Progress.take, Progress.trailing_eq_false hfold hnone, if_neg Bool.false_ne_true]
    rfl
  have hsettle' : ({ p with trailing := true } : Progress).settle =
      .ok { q with trailing := true } := by
    rw [Progress.settle_trailing, hsettle]
    rfl
  exact parse_eq_ok_iff.mpr ⟨_, _, (foldlM_append_singleton hfold "--").trans htake, hsettle', rfl⟩

/-- What looks like a name, before any double dash, is not the expression. -/
theorem parse_append_hyphenated {b : Arguments} (h : parse arguments = .ok a)
    (hnone : "--" ∉ arguments) (hargument : Hyphenated argument)
    (hb : parse (arguments ++ [argument]) = .ok b) : b.expression = a.expression := by
  obtain ⟨p, q, hfold, hsettle, rfl⟩ := parse_eq_ok_iff.mp h
  obtain ⟨p', q', hfold', hsettle', rfl⟩ := parse_eq_ok_iff.mp hb
  rw [foldlM_append_singleton hfold] at hfold'
  have htrailing := Progress.trailing_eq_false hfold hnone
  calc q'.found.expression
    _ = p'.found.expression := (Progress.settle_eq_ok hsettle').2.expression
    _ = p.found.expression := Progress.take_hyphenated htrailing hargument hfold'
    _ = q.found.expression := (Progress.settle_eq_ok hsettle).2.expression.symm

/-- A letter that is no name, after one dash and before any double dash. -/
theorem parse_append_unknown {c : Char} {cs : List Char} (h : parse arguments = .ok a)
    (hnone : "--" ∉ arguments) (hargument : argument.toList = '-' :: c :: cs) (hc : c ≠ '-')
    (hname : Name.ofShort? c = none) :
    parse (arguments ++ [argument]) =
      .error (.misuse (.unexpectedArgument ("-" ++ c.toString))) := by
  obtain ⟨p, q, hfold, -, -⟩ := parse_eq_ok_iff.mp h
  have htake : p.take argument = .error (.misuse (.unexpectedArgument ("-" ++ c.toString))) := by
    rw [Progress.take, Progress.trailing_eq_false hfold hnone, if_neg Bool.false_ne_true,
      Word.ofArgument_short hargument hc]
    simp only [hname]
  rw [parse, foldlM_append_singleton hfold, htake]
  rfl

end

end Arguments

end Calculator.Command
