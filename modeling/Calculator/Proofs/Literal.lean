import Calculator.Proofs.Basic
import Calculator.Proofs.Quotation

/-!
# Number literals

How a number may be written in a structured text, said without the reader: an optional
minus sign, digits that begin with no zero unless it stands alone, a point with digits, an
exponent. The reader takes a literal off a text in one piece wherever the text does not go
on with a character that could belong to it.

Results:

* `split_append`: a literal is read into its parts.
* `meaning_plain`: the decimal digits of a number below `2 ^ 64` stand for it.
* `whole_toDigits`: they are a whole number without leading zeros.
-/

namespace Calculator.Json.Number

/-! ## What a literal looks like -/

/-- One or more digits. -/
def Digits (cs : List Char) : Prop := cs ≠ [] ∧ ∀ c ∈ cs, c.isDigit = true

/-- The digits before the point: a zero alone, or digits that begin with another one. -/
def Whole (cs : List Char) : Prop := Digits cs ∧ (cs.head? = some '0' → cs = ['0'])

theorem whole_zero : Whole ['0'] := ⟨⟨nofun, List.forall_mem_singleton.mpr rfl⟩, fun _ => rfl⟩

/-- The point and the digits after it, if there are any. -/
def fractionChars : List Char → List Char
  | [] => []
  | digits => '.' :: digits

/-- The ways to write an exponent, or none. -/
inductive ExponentSpelled : Option (Bool × List Char) → List Char → Prop
  | absent : ExponentSpelled none []
  | unsigned {mark : Char} {digits : List Char} : mark = 'e' ∨ mark = 'E' → Digits digits →
      ExponentSpelled (some (false, digits)) (mark :: digits)
  | plus {mark : Char} {digits : List Char} : mark = 'e' ∨ mark = 'E' → Digits digits →
      ExponentSpelled (some (false, digits)) (mark :: '+' :: digits)
  | minus {mark : Char} {digits : List Char} : mark = 'e' ∨ mark = 'E' → Digits digits →
      ExponentSpelled (some (true, digits)) (mark :: '-' :: digits)

/-- The ways to write a number. -/
def Spelled (n : Number) (cs : List Char) : Prop :=
  Whole n.whole ∧ (∀ c ∈ n.fraction, c.isDigit = true) ∧
    ∃ tail, ExponentSpelled n.exponent tail ∧
      cs = (if n.negative then ['-'] else []) ++ (n.whole ++ (fractionChars n.fraction ++ tail))

/-- The text after a literal cannot belong to it. -/
def EndsBefore (rest : List Char) : Prop :=
  ∀ c ∈ rest.head?, c.isDigit = false ∧ c ≠ '.' ∧ c ≠ 'e' ∧ c ≠ 'E'

/-! ## The reader -/

section

variable {cs digits fraction tail rest : List Char}

theorem splitDigits_append (h : Digits digits) (hrest : ∀ c ∈ rest.head?, c.isDigit = false) :
    splitDigits (digits ++ rest) = some (digits, rest) := by
  have hend := Run.takeWhile_eq_nil hrest
  rw [splitDigits, Run.takeWhile_append h.2 hend, Run.dropWhile_append h.2 hend]
  have hne : digits.isEmpty = false := List.isEmpty_eq_false_iff.mpr h.1
  rw [hne]
  rfl

theorem splitWhole_append (h : Whole digits) (hrest : ∀ c ∈ rest.head?, c.isDigit = false) :
    splitWhole (digits ++ rest) = some (digits, rest) := by
  match digits, h with
  | [], h => exact absurd rfl h.1.1
  | d :: ds, h =>
    by_cases hzero : d = '0'
    · subst hzero
      cases h.2 rfl
      have hnone : rest.head?.any Char.isDigit = false := by
        cases hhead : rest.head? with
        | none => rfl
        | some c => exact hrest c hhead
      rw [List.singleton_append, splitWhole, hnone]
      rfl
    · rw [List.cons_append, splitWhole]
      · exact splitDigits_append h.1 hrest
      · rintro cs hcs
        exact hzero (List.cons.inj hcs).1

theorem splitFraction_append (h : ∀ c ∈ fraction, c.isDigit = true)
    (hrest : ∀ c ∈ rest.head?, c.isDigit = false ∧ c ≠ '.') :
    splitFraction (fractionChars fraction ++ rest) = some (fraction, rest) := by
  cases fraction with
  | cons d ds =>
    rw [fractionChars, List.cons_append, splitFraction]
    · exact splitDigits_append ⟨List.cons_ne_nil _ _, h⟩ fun c hc => (hrest c hc).1
    · exact List.cons_ne_nil _ _
  | nil =>
    rw [fractionChars, List.nil_append, splitFraction]
    rintro cs rfl
    exact absurd rfl (hrest '.' rfl).2

theorem isDigit_head (h : Digits digits) : ∃ d ds, digits = d :: ds ∧ d.isDigit = true := by
  match digits, h with
  | [], h => exact absurd rfl h.1
  | d :: ds, h => exact ⟨d, ds, rfl, h.2 d List.mem_cons_self⟩

theorem splitExponent_append {exponent : Option (Bool × List Char)}
    (h : ExponentSpelled exponent tail) (hrest : EndsBefore rest) :
    splitExponent (tail ++ rest) = some (exponent, rest) := by
  have hmark : ∀ {mark : Char}, mark = 'e' ∨ mark = 'E' →
      (mark == 'e' || mark == 'E') = true := by
    rintro mark (rfl | rfl) <;> rfl
  have hend : ∀ c ∈ rest.head?, c.isDigit = false := fun c hc => (hrest c hc).1
  cases h with
  | absent =>
    rw [List.nil_append]
    match rest, hrest with
    | [], _ => rfl
    | c :: cs, hrest =>
      have hc : (c == 'e' || c == 'E') = false := by
        rw [Bool.or_eq_false_iff, beq_eq_false_iff_ne, beq_eq_false_iff_ne]
        exact (hrest c rfl).2.2
      rw [splitExponent, hc]
      rfl
  | @unsigned mark digits hm hdigits =>
    obtain ⟨d, ds, rfl, hd⟩ := isDigit_head hdigits
    have hsign : ∀ c, c.isDigit = false → ∀ cs, d :: (ds ++ rest) = c :: cs → False := by
      intro c hc cs hcs
      rw [(List.cons.inj hcs).1, hc] at hd
      cases hd
    have hsigned : splitSigned (d :: ds ++ rest) = some ((false, d :: ds), rest) := by
      rw [List.cons_append, splitSigned, ← List.cons_append, splitDigits_append hdigits hend]
      · rfl
      · exact hsign '-' rfl
      · exact hsign '+' rfl
    rw [List.cons_append, splitExponent, hmark hm, hsigned]
    rfl
  | plus hm hdigits =>
    rw [List.cons_append, List.cons_append, splitExponent, hmark hm, splitSigned,
      splitDigits_append hdigits hend]
    rfl
  | minus hm hdigits =>
    rw [List.cons_append, List.cons_append, splitExponent, hmark hm, splitSigned,
      splitDigits_append hdigits hend]
    rfl

/-- A literal goes on after its digits with a point, an exponent or what follows it. -/
theorem ExponentSpelled.head_append {exponent : Option (Bool × List Char)}
    (h : ExponentSpelled exponent tail) (hrest : EndsBefore rest) :
    ∀ c ∈ (tail ++ rest).head?, c.isDigit = false ∧ c ≠ '.' := by
  have hmark : ∀ {mark : Char}, mark = 'e' ∨ mark = 'E' → mark.isDigit = false ∧ mark ≠ '.' := by
    rintro mark (rfl | rfl) <;> decide
  intro c hc
  cases h with
  | absent => exact ⟨(hrest c hc).1, (hrest c hc).2.1⟩
  | unsigned hm _ => cases hc; exact hmark hm
  | plus hm _ => cases hc; exact hmark hm
  | minus hm _ => cases hc; exact hmark hm

theorem isDigit_head_fractionChars (hrest : ∀ c ∈ rest.head?, c.isDigit = false ∧ c ≠ '.') :
    ∀ c ∈ (fractionChars fraction ++ rest).head?, c.isDigit = false := by
  intro c hc
  cases fraction with
  | nil => exact (hrest c hc).1
  | cons d ds => cases hc; rfl

/-- A literal is read into its parts. -/
theorem split_append {n : Number} (h : n.Spelled cs) (hrest : EndsBefore rest) :
    split (cs ++ rest) = some (n, rest) := by
  obtain ⟨hwhole, hfraction, tail, htail, rfl⟩ := h
  have hafter := htail.head_append hrest
  have hmagnitude : splitMagnitude n.negative (n.whole ++ (fractionChars n.fraction ++ tail) ++ rest)
      = some (n, rest) := by
    rw [List.append_assoc, List.append_assoc, splitMagnitude,
      splitWhole_append hwhole (isDigit_head_fractionChars hafter)]
    simp only [Option.bind_eq_bind, Option.bind_some, splitFraction_append hfraction hafter,
      splitExponent_append htail hrest]
    rfl
  obtain ⟨d, ds, hd, hdigit⟩ := isDigit_head hwhole.1
  cases hnegative : n.negative with
  | true =>
    rw [hnegative] at hmagnitude
    rw [if_pos rfl, List.singleton_append, List.cons_append, split, hmagnitude]
  | false =>
    rw [hnegative] at hmagnitude
    rw [if_neg Bool.false_ne_true, List.nil_append, split, hmagnitude]
    rw [hd]
    rintro cs hcs
    cases hcs
    exact absurd hdigit (by decide)

/-- A literal begins with a minus sign or a digit. -/
theorem Spelled.exists_cons {n : Number} (h : n.Spelled cs) :
    ∃ c ds, cs = c :: ds ∧ (c = '-' ∨ c.isDigit = true) := by
  obtain ⟨hwhole, _, tail, _, rfl⟩ := h
  obtain ⟨d, ds, hd, hdigit⟩ := isDigit_head hwhole.1
  rw [hd]
  cases n.negative with
  | true => exact ⟨'-', _, rfl, .inl rfl⟩
  | false => exact ⟨d, _, rfl, .inr hdigit⟩

/-! ## Characters -/

theorem printable_digits (h : ∀ c ∈ digits, c.isDigit = true) : Printable digits := by
  intro c hc
  have hdigit := h c hc
  simp only [Char.isDigit, Bool.and_eq_true, decide_eq_true_eq] at hdigit
  have hlow : 48 ≤ c.toNat := hdigit.1
  omega

/-- A literal has no control characters. -/
theorem Spelled.printable {n : Number} (h : n.Spelled cs) : Printable cs := by
  obtain ⟨hwhole, hfraction, tail, htail, rfl⟩ := h
  have hmark : ∀ {mark : Char}, mark = 'e' ∨ mark = 'E' → 0x20 ≤ mark.toNat := by
    rintro mark (rfl | rfl) <;> decide
  refine .append ?_ (.append (printable_digits hwhole.1.2) (.append ?_ ?_))
  · cases n.negative <;> decide
  · cases hf : n.fraction with
    | nil => exact nofun
    | cons d ds => rw [hf] at hfraction; exact .cons (by decide) (printable_digits hfraction)
  · generalize n.exponent = exponent at htail
    cases htail with
    | absent => exact nofun
    | unsigned hm hdigits => exact .cons (hmark hm) (printable_digits hdigits.2)
    | plus hm hdigits => exact .cons (hmark hm) (.cons (by decide) (printable_digits hdigits.2))
    | minus hm hdigits => exact .cons (hmark hm) (.cons (by decide) (printable_digits hdigits.2))

end

/-! ## Decimal digits of a number -/

/-- Only zero begins with the digit zero. -/
theorem head?_toDigits (k : Nat) : (Nat.toDigits 10 k).head? = some '0' → k = 0 := by
  induction k using Nat.strongRecOn with
  | ind k ih =>
    intro h
    rw [Nat.toDigits_eq_if (by decide)] at h
    split at h
    · exact Nat.digitChar_eq_zero.mp (Option.some.inj h)
    · next hlarge =>
      have hfront := ih (k / 10) (by omega) (by
        obtain ⟨d, ds, hd⟩ := List.exists_cons_of_ne_nil (Nat.toDigits_ne_nil (b := 10) (n := k / 10))
        rw [hd] at h ⊢
        exact h)
      omega

theorem digits_toDigits (k : Nat) : Digits (Nat.toDigits 10 k) :=
  ⟨Nat.toDigits_ne_nil, fun _ => Nat.isDigit_of_mem_toDigits (by decide) (by decide)⟩

theorem whole_toDigits (k : Nat) : Whole (Nat.toDigits 10 k) := by
  refine ⟨digits_toDigits k, fun h => ?_⟩
  rw [head?_toDigits k h]
  rfl

/-- A number written with its decimal digits alone. -/
def plain (k : Nat) : Number where
  negative := false
  whole := Nat.toDigits 10 k

/-- The digits are the only text of the literal. -/
theorem spelled_plain_iff {k : Nat} {cs : List Char} :
    (plain k).Spelled cs ↔ cs = Nat.toDigits 10 k := by
  constructor
  · rintro ⟨_, _, tail, htail, rfl⟩
    cases htail
    exact List.append_nil _
  · rintro rfl
    exact ⟨whole_toDigits k, nofun, [], .absent, (List.append_nil _).symm⟩

theorem ofDigits_toDigits (k : Nat) : Decimal.ofDigits (Nat.toDigits 10 k) = k := by
  have h := Nat.ofDigitChars_toDigits (b := 10) (n := k) (by decide) (by decide)
  rwa [Nat.ofDigitChars_eq_foldl] at h

/-- As long as 64 bits hold a number, its decimal digits stand for it. -/
theorem meaning_plain {k : Nat} (h : k < wordBound) : (plain k).meaning = .natural k := by
  have hfits : (plain k).fits = true := by
    rw [fits, plain, ofDigits_toDigits]
    exact decide_eq_true h
  rw [meaning, hfits]
  simp [plain, ofDigits_toDigits]

end Calculator.Json.Number
