import Calculator.Decimal.Reader
import Calculator.Proofs.Basic

/-!
# Texts that are numbers

The grammar of the texts that stand for doubles, part by part: an optional sign; digits
with an optional point among them, at least one digit in all; an optional exponent; or a
name in letters of any case instead of digits and exponent. The reader accepts exactly
these texts.

Results:

* `exponent?_isSome_iff`, `magnitude?_isSome_iff`, `unsigned?_isSome_iff`: the same for
  the parts of a text.
* `read?_isSome_iff`: a text is read exactly when it is of the grammar.
-/

namespace Calculator.Decimal

/-! ## The grammar -/

/-- No sign, or one. -/
inductive SignText : List Char → Prop
  | none : SignText []
  | plus : SignText ['+']
  | minus : SignText ['-']

/-- No point, or a point with the digits after it. -/
inductive PointText : List Char → List Char → Prop
  | none : PointText [] []
  | some {ds : List Char} : ds.all Char.isDigit = true → PointText ('.' :: ds) ds

/-- No exponent, or a mark, an optional sign and at least one digit. -/
inductive ExponentText : List Char → Prop
  | none : ExponentText []
  | some {mark : Char} {sign ds : List Char} : mark = 'e' ∨ mark = 'E' → SignText sign →
      ds ≠ [] → ds.all Char.isDigit = true → ExponentText (mark :: (sign ++ ds))

/-- Digits with an optional point, at least one digit, and an optional exponent. -/
inductive DigitsText : List Char → Prop
  | mk {whole point fraction exponent : List Char} : whole.all Char.isDigit = true →
      PointText point fraction → whole ++ fraction ≠ [] → ExponentText exponent →
      DigitsText (whole ++ (point ++ exponent))

/-- The name of a number without digits, in letters of any case. -/
def NameText (cs : List Char) : Prop :=
  String.ofList (cs.map Char.toLower) ∈ ["inf", "infinity", "nan"]

/-- A text that is a number. -/
def Readable (text : String) : Prop :=
  ∃ sign body, text.toList = sign ++ body ∧ SignText sign ∧ (DigitsText body ∨ NameText body)

/-! ## Exponents -/

theorem exponentDigits?_isSome_iff {cs : List Char} :
    (exponentDigits? cs).isSome = true ↔ cs ≠ [] ∧ cs.all Char.isDigit = true := by
  unfold exponentDigits?
  split
  · next h => simpa using h
  · next h => simpa using h

/-- Digits are no sign. -/
theorem exponent?_digits {mark : Char} {ds : List Char}
    (hmark : (mark == 'e' || mark == 'E') = true) (hdigits : ds.all Char.isDigit = true) :
    exponent? (mark :: ds) = (exponentDigits? ds).map Int.ofNat := by
  have hhead : ∀ c cs, ds = c :: cs → c.isDigit = true := by
    intro c cs hds
    exact List.all_eq_true.mp hdigits c (by rw [hds]; exact List.mem_cons_self)
  rw [exponent?, if_pos hmark]
  · exact fun cs hcs => absurd (hhead '+' cs hcs) (by decide)
  · exact fun cs hcs => absurd (hhead '-' cs hcs) (by decide)

theorem exponent?_isSome_iff {cs : List Char} :
    (exponent? cs).isSome = true ↔ ExponentText cs := by
  constructor
  · intro h
    cases cs with
    | nil => exact .none
    | cons mark cs =>
      unfold exponent? at h
      dsimp only at h
      split at h
      · next hmark =>
        have hmark : mark = 'e' ∨ mark = 'E' := by simpa using hmark
        split at h <;> rw [Option.isSome_map, exponentDigits?_isSome_iff] at h
        · exact .some hmark .plus h.1 h.2
        · exact .some hmark .minus h.1 h.2
        · exact .some hmark .none h.1 h.2
      · cases h
  · intro h
    cases h with
    | none => rfl
    | @some mark sign ds hmark hsign hne hdigits =>
      have hmark : (mark == 'e' || mark == 'E') = true := by simpa using hmark
      have hread := exponentDigits?_isSome_iff.mpr ⟨hne, hdigits⟩
      cases hsign with
      | none => rw [List.nil_append, exponent?_digits hmark hdigits, Option.isSome_map, hread]
      | plus => rw [List.singleton_append, exponent?, if_pos hmark, Option.isSome_map, hread]
      | minus => rw [List.singleton_append, exponent?, if_pos hmark, Option.isSome_map, hread]

/-- An exponent begins with its mark. -/
theorem ExponentText.head {cs : List Char} (h : ExponentText cs) :
    ∀ c ∈ cs.head?, c = 'e' ∨ c = 'E' := by
  intro c hc
  cases h with
  | none => cases hc
  | some hmark _ _ _ => cases hc; exact hmark

theorem ExponentText.takeWhile {cs : List Char} (h : ExponentText cs) :
    cs.takeWhile Char.isDigit = [] := by
  refine Run.takeWhile_eq_nil fun c hc => ?_
  rcases h.head c hc with rfl | rfl <;> decide

/-! ## Digits -/

theorem pointText_splitFraction (cs : List Char) :
    ∃ point, PointText point (splitFraction cs).1 ∧ cs = point ++ (splitFraction cs).2 := by
  unfold splitFraction
  split
  · next cs =>
    refine ⟨'.' :: cs.takeWhile Char.isDigit, .some List.all_takeWhile, ?_⟩
    rw [List.cons_append, List.takeWhile_append_dropWhile]
  · exact ⟨[], .none, rfl⟩

theorem PointText.splitFraction_eq {point fraction exponent : List Char}
    (h : PointText point fraction) (hexponent : ExponentText exponent) :
    splitFraction (point ++ exponent) = (fraction, exponent) := by
  cases h with
  | none =>
    rw [List.nil_append]
    unfold splitFraction
    split
    · next cs => exact absurd (hexponent.head '.' rfl) (by decide)
    · rfl
  | some hdigits =>
    have hall := List.all_eq_true.mp hdigits
    rw [List.cons_append, splitFraction, Run.takeWhile_append hall hexponent.takeWhile,
      Run.dropWhile_append hall hexponent.takeWhile]

theorem PointText.takeWhile {point fraction exponent : List Char}
    (h : PointText point fraction) (hexponent : ExponentText exponent) :
    (point ++ exponent).takeWhile Char.isDigit = [] := by
  cases h with
  | none => exact hexponent.takeWhile
  | some _ => rfl

theorem magnitude?_isSome_iff {cs : List Char} :
    (magnitude? cs).isSome = true ↔ DigitsText cs := by
  constructor
  · intro h
    obtain ⟨point, hpoint, hcut⟩ := pointText_splitFraction (cs.dropWhile Char.isDigit)
    have hcs := @List.takeWhile_append_dropWhile _ Char.isDigit cs
    rw [hcut] at hcs
    rw [← hcs]
    simp only [magnitude?] at h
    split at h
    · cases h
    · next hdigit =>
      rw [Option.isSome_map, exponent?_isSome_iff] at h
      refine .mk List.all_takeWhile hpoint ?_ h
      simpa using hdigit
  · intro h
    cases h with
    | @mk whole point fraction exponent hwhole hpoint hdigit hexponent =>
      have hall := List.all_eq_true.mp hwhole
      have htake := hpoint.takeWhile hexponent
      have hread := exponent?_isSome_iff.mpr hexponent
      have hempty : (whole.isEmpty && fraction.isEmpty) = false := by simpa using hdigit
      simp only [magnitude?]
      rw [Run.takeWhile_append hall htake, Run.dropWhile_append hall htake,
        hpoint.splitFraction_eq hexponent]
      simp [hempty, hread]

/-! ## Names and signs -/

theorem name?_isSome_iff {cs : List Char} : (name? cs).isSome = true ↔ NameText cs := by
  simp only [name?, NameText]
  split
  · next h =>
    rcases (Bool.or_eq_true _ _).mp h with h | h <;> simp [beq_iff_eq.mp h]
  · next h =>
    obtain ⟨hinf, hinfinity⟩ := Bool.or_eq_false_iff.mp (Bool.not_eq_true _ ▸ h)
    split
    · next hnan => simp [beq_iff_eq.mp hnan]
    · next hnan => simp_all

theorem unsigned?_isSome_iff {cs : List Char} :
    (unsigned? cs).isSome = true ↔ DigitsText cs ∨ NameText cs := by
  rw [unsigned?, Option.isSome_or, Bool.or_eq_true, magnitude?_isSome_iff, name?_isSome_iff]

/-- What stands after the sign begins with no sign. -/
theorem unsigned?_sign {c : Char} (cs : List Char) (h : c = '+' ∨ c = '-') :
    unsigned? (c :: cs) = none := by
  have hname : ¬ NameText (c :: cs) := by
    intro hmem
    simp only [NameText, List.mem_cons, List.not_mem_nil, or_false] at hmem
    rcases hmem with hword | hword | hword <;>
      · have hchars := congrArg String.toList hword
        rw [String.toList_ofList, List.map_cons] at hchars
        have hhead := (List.cons.inj hchars).1
        rcases h with rfl | rfl <;> cases hhead
  have hdigits : ¬ DigitsText (c :: cs) := by
    rw [← magnitude?_isSome_iff]
    rcases h with rfl | rfl <;> exact Bool.false_ne_true
  rw [← Option.not_isSome_iff_eq_none, unsigned?_isSome_iff]
  exact fun h => h.elim hdigits hname

/-- Exactly the texts of the grammar are read. -/
theorem read?_isSome_iff (text : String) : (read? text).isSome = true ↔ Readable text := by
  unfold Readable
  constructor
  · intro h
    unfold read? at h
    split at h
    · next cs hcs =>
      rw [Option.isSome_map, unsigned?_isSome_iff] at h
      exact ⟨['-'], cs, hcs, .minus, h⟩
    · next cs hcs => exact ⟨['+'], cs, hcs, .plus, unsigned?_isSome_iff.mp h⟩
    · exact ⟨[], text.toList, rfl, .none, unsigned?_isSome_iff.mp h⟩
  · rintro ⟨sign, body, htext, hsign, hbody⟩
    rw [← unsigned?_isSome_iff] at hbody
    unfold read?
    rw [htext]
    cases hsign with
    | minus => exact (Option.isSome_map (f := Float.neg)).trans hbody
    | plus => exact hbody
    | none =>
      rw [List.nil_append]
      split
      · rw [unsigned?_sign _ (.inr rfl)] at hbody; cases hbody
      · rw [unsigned?_sign _ (.inl rfl)] at hbody; cases hbody
      · exact hbody

end Calculator.Decimal
