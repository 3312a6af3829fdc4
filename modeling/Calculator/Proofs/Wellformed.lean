import Calculator.Proofs.Matching
import Calculator.Proofs.Postorder

/-!
# Well-formed token lists

Whether a token list is an expression can be told without a parse: its brackets match
and its operands and operators alternate. One direction follows from the postfix
order that the yard finds. For the other, an expression is read off the front of the
list, up to its end or to a closing bracket that belongs to a bracket before it.

Results:

* `Derives.prepend`: an atom and an operator in front of an expression make an
  expression again, whatever the precedence of the operator.
* `exists_derives_prefix`: the expression at the front of an alternating list.
* `exists_derives_iff`: a list is an expression exactly when it alternates and its
  brackets match.
-/

namespace Calculator

/-! ## Prepending an operand -/

namespace Derives

section

variable {op : Operator} {u : List Token} {a : Tree String}

/-- A stronger operator than the additive ones, between an atom and a factor. -/
theorem joinTerm {w : List Token} {t : Tree String} (hop : 2 ≤ op.precedence)
    (hu : Derives .atom u a) (h : Derives .factor w t) :
    Derives .term (u ++ .operator op :: w) (.node op a t) := by
  cases op with
  | add => exact absurd hop (by decide)
  | sub => exact absurd hop (by decide)
  | mul => exact .product (.inl rfl) (.term (.factor hu)) h
  | div => exact .product (.inr rfl) (.term (.factor hu)) h
  | pow => exact .term (.power hu h)

/-- Such an operator goes into the leftmost factor of the term after it. -/
theorem prependTerm {c : Category} {w : List Token} {t : Tree String} (hop : 2 ≤ op.precedence)
    (hu : Derives .atom u a) (h : Derives c w t) (hc : Category.term.strength ≤ c.strength) :
    ∃ t', Derives .term (u ++ .operator op :: w) t' := by
  induction h with
  | expression _ _ => exact absurd hc (by decide)
  | sum _ _ _ _ _ => exact absurd hc (by decide)
  | term _ ih => exact ih (by decide)
  | factor _ ih => exact ih (by decide)
  | product hop' _ hr ihl _ =>
    obtain ⟨t', ht'⟩ := ihl (by decide)
    have h := product hop' ht' hr
    rw [List.append_assoc] at h
    exact ⟨_, h⟩
  | power hl hr _ _ => exact ⟨_, joinTerm hop hu (.power hl hr)⟩
  | number text => exact ⟨_, joinTerm hop hu (.factor (.number text))⟩
  | bracketed b h _ => exact ⟨_, joinTerm hop hu (.factor (.bracketed b h))⟩

/-- An additive operator takes the whole term after it. -/
theorem prependToTerm {w : List Token} {t : Tree String} (hu : Derives .atom u a)
    (h : Derives .term w t) : ∃ t', Derives .expression (u ++ .operator op :: w) t' := by
  by_cases hop : 2 ≤ op.precedence
  · obtain ⟨t', ht'⟩ := prependTerm hop hu h (Nat.le_refl _)
    exact ⟨t', .expression ht'⟩
  · have hsum : op = .add ∨ op = .sub := by cases op <;> revert hop <;> decide
    exact ⟨_, .sum hsum hu.toExpression h⟩

theorem prepend {c : Category} {w : List Token} {t : Tree String} (hu : Derives .atom u a)
    (h : Derives c w t) : ∃ t', Derives .expression (u ++ .operator op :: w) t' := by
  induction h with
  | expression h _ => exact prependToTerm hu h
  | sum hop _ hr ihl _ =>
    obtain ⟨t', ht'⟩ := ihl
    have h := sum hop ht' hr
    rw [List.append_assoc] at h
    exact ⟨_, h⟩
  | term h _ => exact prependToTerm hu (.term h)
  | product hop hl hr _ _ => exact prependToTerm hu (.product hop hl hr)
  | factor h _ => exact prependToTerm hu (.term (.factor h))
  | power hl hr _ _ => exact prependToTerm hu (.term (.power hl hr))
  | number text => exact prependToTerm hu (.term (.factor (.number text)))
  | bracketed b h _ => exact prependToTerm hu (.term (.factor (.bracketed b h)))

end

end Derives

/-! ## The expression at the front -/

/-- What is left of a list after an expression at its front: an operator is due, and the
    brackets that were open before are closed in it. -/
structure Resumes (opened : List Bracket) (rest : List Token) : Prop where
  alternate : Token.alternate false rest = true
  matched : Matching.run opened rest = .ok []

/-- A closing bracket closes the innermost open one. -/
theorem Resumes.closing {b b' : Bracket} {opened : List Bracket} {rest : List Token}
    (h : Resumes (b :: opened) (.closing b' :: rest)) : b = b' ∧ Resumes opened rest := by
  have hmatched := h.matched
  rw [Matching.run_cons, Matching.step] at hmatched
  by_cases hb : b = b'
  · simp only [if_pos hb, Except.ok_bind] at hmatched
    exact ⟨hb, h.alternate, hmatched⟩
  · simp only [if_neg hb, Except.error_bind] at hmatched
    cases hmatched

/-- An expression at the front of a list, up to the end or a closing bracket. -/
def Fronted (opened : List Bracket) (ts : List Token) : Prop :=
  ∃ w t rest, ts = w ++ rest ∧ Derives .expression w t ∧ Resumes opened rest ∧
    (rest = [] ∨ ∃ b rest', rest = .closing b :: rest')

/-- An atom at the front, with an expression after the operator that may follow it. -/
theorem fronted_of_atom {opened : List Bracket} {u rest : List Token} {a : Tree String}
    (hu : Derives .atom u a) (hrest : Resumes opened rest)
    (ih : ∀ op ts, rest = .operator op :: ts → Token.alternate true ts = true →
      Matching.run opened ts = .ok [] → Fronted opened ts) : Fronted opened (u ++ rest) := by
  cases rest with
  | nil => exact ⟨u, a, [], rfl, hu.toExpression, hrest, .inl rfl⟩
  | cons x ts =>
    have halt := hrest.alternate
    cases x with
    | closing b => exact ⟨u, a, _, rfl, hu.toExpression, hrest, .inr ⟨b, ts, rfl⟩⟩
    | operator op =>
      obtain ⟨w, t, rest, rfl, hw, hresumes, hend⟩ := ih op ts rfl halt hrest.matched
      obtain ⟨t', ht'⟩ := hu.prepend hw
      exact ⟨u ++ .operator op :: w, t', rest, by simp, ht', hresumes, hend⟩
    | number text => cases halt
    | opening b => cases halt
    | invalid text => cases halt

/-- The induction is on the length: a bracket hands its contents over, and an operator the
    list after it. -/
theorem exists_derives_prefix (n : Nat) : ∀ opened ts, ts.length ≤ n →
    Token.alternate true ts = true → Matching.run opened ts = .ok [] → Fronted opened ts := by
  induction n with
  | zero =>
    intro opened ts hlen halt _
    rw [List.length_eq_zero_iff.mp (Nat.le_zero.mp hlen)] at halt
    cases halt
  | succ n ih =>
    intro opened ts hlen halt hmatched
    cases ts with
    | nil => cases halt
    | cons x ts =>
      rw [List.length_cons] at hlen
      cases x with
      | number text =>
        refine fronted_of_atom (u := [.number text]) (.number text) ⟨halt, hmatched⟩ ?_
        intro op ts' hts
        rw [hts, List.length_cons] at hlen
        exact ih opened ts' (by omega)
      | opening b =>
        obtain ⟨w, t, rest, rfl, hw, hresumes, hend⟩ := ih (b :: opened) ts (by omega) halt hmatched
        rcases hend with rfl | ⟨b', rest', rfl⟩
        · cases hresumes.matched
        · obtain ⟨rfl, hrest⟩ := hresumes.closing
          have hsplit : Token.opening b :: (w ++ .closing b :: rest') =
              (.opening b :: (w ++ [.closing b])) ++ rest' := by simp
          rw [hsplit]
          refine fronted_of_atom (.bracketed b hw) hrest ?_
          intro op ts' hts
          rw [hts, List.length_append, List.length_cons, List.length_cons] at hlen
          exact ih opened ts' (by omega)
      | operator op => cases halt
      | closing b => cases halt
      | invalid text => cases halt

/-- A token list is an expression exactly when operands and operators alternate in it and
    its brackets match. -/
theorem exists_derives_iff {ts : List Token} :
    (∃ t, Derives .expression ts t) ↔
      Token.alternate true ts = true ∧ Matching.check ts = .ok () := by
  constructor
  · rintro ⟨t, h⟩
    exact ⟨h.alternate, Yard.exists_arrange_iff.mp ⟨_, h.arrange_eq⟩⟩
  · rintro ⟨halt, hcheck⟩
    obtain ⟨w, t, rest, rfl, hw, hresumes, hend⟩ :=
      exists_derives_prefix ts.length [] ts (Nat.le_refl _) halt (Matching.check_eq_ok_iff.mp hcheck)
    rcases hend with rfl | ⟨b, rest', rfl⟩
    · rw [List.append_nil]
      exact ⟨t, hw⟩
    · cases hresumes.matched

end Calculator
