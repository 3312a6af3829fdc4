/-!
# Chains and runs

The parts of a calculation are chained: the first fault ends the chain. First the
laws by which a chain is taken apart, also one over the items of a list, then what a
chain over a list has from each of its steps, then facts about the longest run of items
that have a property, which the scanner and the yard cut off.
-/

namespace Calculator

namespace Except

variable {ε ε' α β : Type}

@[simp] theorem ok_bind (a : α) (f : α → Except ε β) : (Except.ok a >>= f) = f a := rfl

@[simp] theorem error_bind (e : ε) (f : α → Except ε β) :
    ((Except.error e : Except ε α) >>= f) = .error e := rfl

@[simp] theorem map_ok (a : α) (f : α → β) : (Except.ok a : Except ε α).map f = .ok (f a) := rfl

@[simp] theorem map_error (e : ε) (f : α → β) :
    (Except.error e : Except ε α).map f = .error e := rfl

@[simp] theorem mapError_ok (a : α) (f : ε → ε') :
    (Except.ok a : Except ε α).mapError f = .ok a := rfl

@[simp] theorem mapError_error (e : ε) (f : ε → ε') :
    (Except.error e : Except ε α).mapError f = .error (f e) := rfl

/-- A chain succeeds exactly when both of its parts do. -/
theorem bind_eq_ok_iff {x : Except ε α} {f : α → Except ε β} {b : β} :
    (x >>= f) = .ok b ↔ ∃ a, x = .ok a ∧ f a = .ok b := by
  cases x with
  | error e => simp
  | ok a => simp

theorem mapError_eq_ok_iff {x : Except ε α} {f : ε → ε'} {a : α} :
    x.mapError f = .ok a ↔ x = .ok a := by
  cases x with
  | error e => simp
  | ok b => simp

/-- A run over items fails at the first item that it cannot take, and nowhere else. -/
theorem foldlM_eq_error_iff {σ : Type} {step : σ → α → Except ε σ} {e : ε} (xs : List α) :
    ∀ s, xs.foldlM step s = .error e ↔
      ∃ before x after now, xs = before ++ x :: after ∧ before.foldlM step s = .ok now ∧
        step now x = .error e := by
  induction xs with
  | nil =>
    intro s
    constructor
    · intro h
      cases h
    · rintro ⟨before, x, after, now, h, _⟩
      cases before <;> cases h
  | cons x xs ih =>
    intro s
    rw [List.foldlM_cons]
    cases hstep : step s x with
    | error e' =>
      rw [error_bind]
      constructor
      · intro h
        exact ⟨[], x, xs, s, rfl, rfl, hstep.trans h⟩
      · rintro ⟨before, x', after, now, hxs, hbefore, hfault⟩
        cases before with
        | nil =>
          cases hxs
          cases hbefore
          exact hstep.symm.trans hfault
        | cons y before =>
          cases hxs
          rw [List.foldlM_cons, hstep] at hbefore
          cases hbefore
    | ok next =>
      rw [ok_bind, ih next]
      constructor
      · rintro ⟨before, x', after, now, rfl, hbefore, hfault⟩
        refine ⟨x :: before, x', after, now, rfl, ?_, hfault⟩
        rw [List.foldlM_cons, hstep, ok_bind, hbefore]
      · rintro ⟨before, x', after, now, hxs, hbefore, hfault⟩
        cases before with
        | nil =>
          cases hxs
          cases hbefore
          rw [hstep] at hfault
          cases hfault
        | cons y before =>
          cases hxs
          rw [List.foldlM_cons, hstep, ok_bind] at hbefore
          exact ⟨before, x', after, now, rfl, hbefore, hfault⟩

section Fold

variable {σ τ : Type} {step : σ → α → Except ε σ} {step' : τ → α → Except ε τ} {view : σ → τ}

/-- Where every step is the same through `view`, so is a run, with or without a fault. -/
theorem foldlM_view (h : ∀ s x, step' (view s) x = (step s x).map view) (xs : List α) :
    ∀ s, xs.foldlM step' (view s) = (xs.foldlM step s).map view := by
  induction xs with
  | nil => intro s; rfl
  | cons x xs ih =>
    intro s
    rw [List.foldlM_cons, List.foldlM_cons, h]
    cases step s x with
    | error e => rfl
    | ok next => exact ih next

/-- Where every step that is taken can be taken through `view`, so can a run. -/
theorem foldlM_follow (h : ∀ {s x t}, step s x = .ok t → step' (view s) x = .ok (view t))
    (xs : List α) : ∀ {s t}, xs.foldlM step s = .ok t →
      xs.foldlM step' (view s) = .ok (view t) := by
  induction xs with
  | nil =>
    intro s t hrun
    cases hrun
    rfl
  | cons x xs ih =>
    intro s t hrun
    rw [List.foldlM_cons] at hrun ⊢
    obtain ⟨next, hnext, hrest⟩ := bind_eq_ok_iff.mp hrun
    rw [h hnext, ok_bind]
    exact ih hrest

/-- What every step keeps, a run keeps. -/
theorem foldlM_keep {P : σ → Prop} (h : ∀ {s x t}, P s → step s x = .ok t → P t)
    (xs : List α) : ∀ {s t}, P s → xs.foldlM step s = .ok t → P t := by
  induction xs with
  | nil =>
    intro s t hs hrun
    cases hrun
    exact hs
  | cons x xs ih =>
    intro s t hs hrun
    rw [List.foldlM_cons] at hrun
    obtain ⟨next, hnext, hrest⟩ := bind_eq_ok_iff.mp hrun
    exact ih (h hs hnext) hrest

end Fold

end Except

namespace Run

variable {α : Type} {p : α → Bool} {l m : List α}

/-- A run ends where the list after it does not go on with the property. -/
theorem takeWhile_append (hl : ∀ x ∈ l, p x = true) (hm : m.takeWhile p = []) :
    (l ++ m).takeWhile p = l := by
  rw [List.takeWhile_append_of_pos hl, hm, List.append_nil]

theorem dropWhile_eq_self (h : m.takeWhile p = []) : m.dropWhile p = m := by
  have hcut := @List.takeWhile_append_dropWhile _ p m
  rwa [h, List.nil_append] at hcut

theorem dropWhile_append (hl : ∀ x ∈ l, p x = true) (hm : m.takeWhile p = []) :
    (l ++ m).dropWhile p = m := by
  rw [List.dropWhile_append_of_pos hl, dropWhile_eq_self hm]

theorem takeWhile_eq_nil (h : ∀ x ∈ m.head?, p x = false) : m.takeWhile p = [] := by
  cases m with
  | nil => rfl
  | cons x m => rw [List.takeWhile_cons, h x rfl]; rfl

end Run

end Calculator
