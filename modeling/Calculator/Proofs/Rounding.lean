import Calculator.Decimal.Binary
import Mathlib.Algebra.Order.Field.Power
import Mathlib.Algebra.Order.Field.Rat
import Mathlib.Tactic.Linarith
import Mathlib.Tactic.Positivity
import Mathlib.Tactic.Ring

/-!
# Rounding intervals

What the fields of a double stand for, as a rational number, and the numbers that are read as
it: those between the midpoints to the next smaller and the next larger double. A midpoint
itself belongs to the one of the two doubles whose significand is even.

Results:

* `legal_of_decode`: what holds of the magnitude of a double.
* `decode_injective`: a double is what it stands for.
* `Binary.midpoint_bounds`, `Binary.closed_eq_false_of_upper_eq_lower`: two magnitudes and what
  lies between them.
* `Binary.Covers.nearest`: what is read as a double is nearer to it than to any other one.
* `Binary.eq_of_covers`: no number is read as two doubles.
-/

namespace Calculator.Decimal

/-! ## Magnitudes -/

theorem fractionBound_eq : fractionBound = 4503599627370496 := rfl

namespace Binary

/-- What holds of the magnitude of a finite double other than zero: the significand has at
    most 53 bits, and all of them unless the exponent is the least one. The next smaller double
    lies half a step below where all bits but the first are zero. -/
structure Legal (b : Binary) : Prop where
  pos : 0 < b.significand
  lt : b.significand < 2 * fractionBound
  least : -1074 ≤ b.exponent
  greatest : b.exponent ≤ 971
  normal : -1074 < b.exponent → fractionBound ≤ b.significand
  narrow_iff : b.narrow = true ↔ b.significand = fractionBound ∧ -1074 < b.exponent

theorem legal_ofFields {biased fraction : Nat} (hbiased : biased < 2047)
    (hfraction : fraction < fractionBound) (h : biased = 0 → 0 < fraction) :
    (ofFields biased fraction).Legal := by
  have hbound := fractionBound_eq
  unfold ofFields
  split
  · constructor <;> simp <;> omega
  · constructor <;> simp <;> omega

theorem ofFields_inj {biased biased' fraction fraction' : Nat}
    (hfraction : fraction < fractionBound) (hfraction' : fraction' < fractionBound)
    (h : ofFields biased fraction = ofFields biased' fraction') :
    biased = biased' ∧ fraction = fraction' := by
  unfold ofFields at h
  split at h <;> split at h <;> simp only [mk.injEq] at h <;> omega

end Binary

/-! ## The fields of a double -/

section

variable {x y : Float}

/-- The bits of a double are those of its sign, its exponent and its fraction. -/
theorem toNat_toBits (x : Float) : x.toBits.toNat =
    (x.toBits.toNat / fractionBound / 2048 % 2 * 2048 + x.toBits.toNat / fractionBound % 2048) *
      fractionBound + x.toBits.toNat % fractionBound := by
  have hlt := x.toBits.toNat_lt
  rw [fractionBound_eq]
  omega

theorem eq_of_toBits {x y : Float} (h : x.toBits.toNat = y.toBits.toNat) : x = y := by
  obtain ⟨⟨bits, _⟩⟩ := x
  obtain ⟨⟨bits', _⟩⟩ := y
  have hbits : bits = bits' := UInt64.toNat_inj.mp h
  subst hbits
  rfl

/-- What stands for no number has the greatest exponent and some fraction. -/
theorem fields_of_undefined (h : decode x = .undefined) :
    x.toBits.toNat / fractionBound % 2048 = 2047 ∧ x.toBits.toNat % fractionBound ≠ 0 := by
  unfold decode at h
  simp only at h
  split at h
  next hbiased =>
    split at h
    next => cases h
    next hfraction => exact ⟨hbiased, hfraction⟩
  next => split at h <;> cases h

open Float.Model (Format) in
open Float.Model.UnpackedFloat (packedNaN unpackExponent unpackMantissa) in
/-- There is one bit pattern for no number. -/
theorem toBits_of_undefined (h : decode x = .undefined) :
    x.toBits.toBitVec = packedNaN Format.binary64 := by
  obtain ⟨hbiased, hfraction⟩ := fields_of_undefined h
  rw [fractionBound_eq] at hbiased hfraction
  apply x.toModel.valid.eq_packedNaN
  · apply BitVec.eq_of_toNat_eq
    simp only [unpackExponent, BitVec.toNat_cast, BitVec.extractLsb_toNat,
      Nat.shiftRight_eq_div_pow]
    exact hbiased
  · intro hzero
    have hnone := congrArg BitVec.toNat hzero
    simp only [unpackMantissa, BitVec.toNat_cast, BitVec.extractLsb_toNat] at hnone
    exact hfraction hnone

theorem legal_of_decode {negative : Bool} {b : Binary} (h : decode x = .finite negative b) :
    b.Legal := by
  unfold decode at h
  simp only at h
  split at h
  next => split at h <;> cases h
  next hbiased =>
    split at h
    next => cases h
    next hzero =>
      cases h
      apply Binary.legal_ofFields
      · omega
      · exact Nat.mod_lt _ (by decide)
      · intro hexponent
        simp only [hexponent, decide_true, Bool.true_and, decide_eq_true_eq] at hzero
        omega

/-- The fields of any other double are those of what it stands for. -/
theorem fields_eq_of_decode_eq (hx : decode x ≠ .undefined) (h : decode x = decode y) :
    x.toBits.toNat / fractionBound / 2048 % 2 = y.toBits.toNat / fractionBound / 2048 % 2 ∧
      x.toBits.toNat / fractionBound % 2048 = y.toBits.toNat / fractionBound % 2048 ∧
      x.toBits.toNat % fractionBound = y.toBits.toNat % fractionBound := by
  have hfraction := fun z : Float => Nat.mod_lt z.toBits.toNat (show 0 < fractionBound by decide)
  have hfx := hfraction x
  have hfy := hfraction y
  unfold decode at hx h
  simp only [Bool.and_eq_true, decide_eq_true_eq] at hx h
  generalize x.toBits.toNat % fractionBound = f at *
  generalize y.toBits.toNat % fractionBound = f' at *
  generalize x.toBits.toNat / fractionBound % 2048 = e at *
  generalize y.toBits.toNat / fractionBound % 2048 = e' at *
  generalize x.toBits.toNat / fractionBound / 2048 = s at *
  generalize y.toBits.toNat / fractionBound / 2048 = s' at *
  -- an infinity, no number, a zero and any other number are told apart by their constructors
  split_ifs at hx h <;> simp at h
  · omega
  · exact absurd rfl hx
  · omega
  · obtain ⟨hsign, hfields⟩ := h
    obtain ⟨hbiased, hfraction⟩ := Binary.ofFields_inj hfx hfy hfields
    exact ⟨by omega, hbiased, hfraction⟩

/-- A double is what it stands for. -/
theorem decode_injective : Function.Injective decode := by
  intro x y h
  apply eq_of_toBits
  by_cases hundefined : decode x = .undefined
  · have hx := toBits_of_undefined hundefined
    have hy := toBits_of_undefined (h.symm.trans hundefined)
    exact congrArg BitVec.toNat (hx.trans hy.symm)
  · obtain ⟨hsign, hbiased, hfraction⟩ := fields_eq_of_decode_eq hundefined h
    rw [toNat_toBits x, toNat_toBits y, hsign, hbiased, hfraction]

end

/-! ## What is read as a double -/

namespace Binary

variable {b b' : Binary} {x y z : ℚ}

/-- The number that the double is. -/
def toRat (b : Binary) : ℚ := b.significand * 2 ^ b.exponent

/-- The midpoint to the next smaller double. -/
def lower (b : Binary) : ℚ := (b.significand - if b.narrow then 1 / 4 else 1 / 2) * 2 ^ b.exponent

/-- The midpoint to the next larger double. -/
def upper (b : Binary) : ℚ := (b.significand + 1 / 2) * 2 ^ b.exponent

/-- The number is read as the double: it lies between the two midpoints, which themselves
    belong to it when its significand is even. -/
def Covers (b : Binary) (x : ℚ) : Prop :=
  if b.closed then b.lower ≤ x ∧ x ≤ b.upper else b.lower < x ∧ x < b.upper

theorem step_pos (b : Binary) : (0 : ℚ) < 2 ^ b.exponent := zpow_pos two_pos _

theorem four_mul_lower (b : Binary) :
    4 * b.lower = (4 * b.significand - (if b.narrow then 1 else 2 : Nat)) * 2 ^ b.exponent := by
  unfold lower
  split <;> push_cast <;> ring

theorem lower_lt_toRat (b : Binary) : b.lower < b.toRat := by
  unfold lower toRat
  have hstep := b.step_pos
  apply mul_lt_mul_of_pos_right _ hstep
  split <;> linarith

theorem toRat_lt_upper (b : Binary) : b.toRat < b.upper := by
  unfold upper toRat
  have hstep := b.step_pos
  apply mul_lt_mul_of_pos_right _ hstep
  linarith

theorem covers_of_between (hlower : b.lower < x) (hupper : x < b.upper) : b.Covers x := by
  unfold Covers
  split
  · exact ⟨hlower.le, hupper.le⟩
  · exact ⟨hlower, hupper⟩

theorem covers_toRat (b : Binary) : b.Covers b.toRat :=
  covers_of_between b.lower_lt_toRat b.toRat_lt_upper

theorem Covers.bounds (h : b.Covers x) : b.lower ≤ x ∧ x ≤ b.upper := by
  unfold Covers at h
  split at h
  · exact h
  · exact ⟨h.1.le, h.2.le⟩

theorem Covers.closed_of_eq (h : b.Covers x) (hx : x = b.lower ∨ x = b.upper) :
    b.closed = true := by
  unfold Covers at h
  split at h
  next hclosed => exact hclosed
  next =>
    rcases hx with rfl | rfl
    · exact absurd h.1 (lt_irrefl _)
    · exact absurd h.2 (lt_irrefl _)

/-- What lies between two numbers that are read as a double is read as it. -/
theorem Covers.between (hx : b.Covers x) (hz : b.Covers z) (hxy : x ≤ y) (hyz : y ≤ z) :
    b.Covers y := by
  unfold Covers at *
  split at hx
  next hclosed =>
    rw [if_pos hclosed] at hz ⊢
    exact ⟨hx.1.trans hxy, hyz.trans hz.2⟩
  next hopen =>
    rw [if_neg hopen] at hz ⊢
    exact ⟨hx.1.trans_le hxy, hyz.trans_lt hz.2⟩

/-- Zero is read as no other double. -/
theorem lower_pos (hb : 0 < b.significand) : 0 < b.lower := by
  have hone : (1 : ℚ) ≤ b.significand := by exact_mod_cast hb
  apply mul_pos _ b.step_pos
  split <;> linarith

/-! ## Two doubles -/

/-- A double of a larger exponent is larger. -/
theorem toRat_lt_of_exponent_lt (hb : b.Legal) (hb' : b'.Legal) (h : b.exponent < b'.exponent) :
    b.toRat < b'.toRat := by
  have hnormal : (fractionBound : ℚ) ≤ b'.significand := by
    have hleast := hb.least
    exact_mod_cast hb'.normal (by omega)
  have hfewer : (b.significand : ℚ) < 2 * fractionBound := by exact_mod_cast hb.lt
  have htwice : (2 : ℚ) ^ b.exponent * 2 ≤ 2 ^ b'.exponent := by
    rw [← zpow_add_one₀ two_ne_zero]
    exact zpow_le_zpow_right₀ one_le_two (by omega)
  calc b.toRat < 2 * fractionBound * 2 ^ b.exponent := mul_lt_mul_of_pos_right hfewer b.step_pos
    _ = fractionBound * (2 ^ b.exponent * 2) := by ring
    _ ≤ fractionBound * 2 ^ b'.exponent := mul_le_mul_of_nonneg_left htwice (Nat.cast_nonneg _)
    _ ≤ b'.toRat := mul_le_mul_of_nonneg_right hnormal b'.step_pos.le

theorem eq_of_toRat_eq (hb : b.Legal) (hb' : b'.Legal) (h : b.toRat = b'.toRat) : b = b' := by
  have hexponent : b.exponent = b'.exponent := by
    rcases lt_trichotomy b.exponent b'.exponent with hlt | heq | hlt
    · exact absurd h (toRat_lt_of_exponent_lt hb hb' hlt).ne
    · exact heq
    · exact absurd h (toRat_lt_of_exponent_lt hb' hb hlt).ne'
  have hsignificand : b.significand = b'.significand := by
    unfold toRat at h
    rw [hexponent] at h
    exact_mod_cast mul_right_cancel₀ b'.step_pos.ne' h
  have hnarrow : b.narrow = b'.narrow := by
    rw [Bool.eq_iff_iff, hb.narrow_iff, hb'.narrow_iff, hsignificand, hexponent]
  cases b
  cases b'
  simp_all

/-- The larger double in steps of the smaller one: `times` of them are one of its own. It lies
    at least one step above, the middle of the two is not above its lower midpoint, and where
    the midpoints of the two meet, one of the significands is odd. -/
structure Gap (b b' : Binary) (times : Nat) : Prop where
  above : b.significand + 1 ≤ b'.significand * times
  below : 2 * b.significand + (if b'.narrow then 1 else 2) * times ≤ 2 * (b'.significand * times)
  odd : 4 * b.significand + 2 + (if b'.narrow then 1 else 2) * times =
    4 * (b'.significand * times) → b.closed = true → b'.closed = false

/-- At the same exponent, the larger double has the larger significand. -/
theorem gap_one (hb : b.Legal) (hb' : b'.Legal) (hexponent : b'.exponent = b.exponent)
    (h : b.significand < b'.significand) : Gap b b' 1 := by
  have hnarrow : b'.narrow = false := by
    rw [Bool.eq_false_iff]
    intro hnarrow
    obtain ⟨hsignificand, hexponent'⟩ := hb'.narrow_iff.mp hnarrow
    have hnormal := hb.normal (hexponent ▸ hexponent')
    omega
  constructor
  · omega
  · simp only [hnarrow, Bool.false_eq_true, if_false]
    omega
  · simp only [hnarrow, Bool.false_eq_true, if_false, closed, decide_eq_true_eq,
      decide_eq_false_iff_not]
    omega

/-- At a larger exponent, a power of two has half a step below it. The midpoints meet only
    under a power of two, and the smaller double is then the greatest one of its exponent. -/
theorem gap_even_of_narrow (hb : b.Legal) (hb' : b'.Legal) (hnarrow : b'.narrow = true)
    {half : Nat} (hhalf : 0 < half) : Gap b b' (2 * half) := by
  obtain ⟨hsignificand, _⟩ := hb'.narrow_iff.mp hnarrow
  have hlt := hb.lt
  rw [fractionBound_eq] at hlt hsignificand
  constructor <;> rw [hsignificand]
  · omega
  · rw [if_pos hnarrow]
    omega
  · rw [if_pos hnarrow]
    intro hmeet hclosed
    have hhalf' : half = 1 := by
      have hle := hmeet.ge
      clear hmeet
      omega
    subst hhalf'
    rw [closed, decide_eq_true_eq] at hclosed
    omega

/-- Any other double of a larger exponent lies more than half a step of its own above. -/
theorem gap_even_of_not_narrow (hb : b.Legal) (hb' : b'.Legal)
    (hexponent : b.exponent < b'.exponent) (hnarrow : b'.narrow = false) {half : Nat}
    (hhalf : 0 < half) : Gap b b' (2 * half) := by
  have hlt := hb.lt
  have hleast : -1074 < b'.exponent := by
    have hleast := hb.least
    omega
  have hmore : fractionBound + 1 ≤ b'.significand := by
    have hnormal := hb'.normal hleast
    have hne : b'.significand ≠ fractionBound := by
      intro heq
      rw [hb'.narrow_iff.mpr ⟨heq, hleast⟩] at hnarrow
      cases hnarrow
    omega
  have hsteps := Nat.mul_le_mul_right (2 * half) hmore
  rw [fractionBound_eq] at hlt hsteps
  generalize hproduct : b'.significand * (2 * half) = steps at hsteps
  constructor <;> rw [hproduct]
  · omega
  · rw [if_neg (by simp [hnarrow])]
    omega
  · rw [if_neg (by simp [hnarrow])]
    intro hmeet
    have hle := hmeet.ge
    clear hmeet
    omega

theorem gap_of_toRat_lt (hb : b.Legal) (hb' : b'.Legal) (h : b.toRat < b'.toRat) :
    ∃ times : Nat, (2 : ℚ) ^ b'.exponent = times * 2 ^ b.exponent ∧ Gap b b' times := by
  have hexponent : b.exponent ≤ b'.exponent := by
    rw [← not_lt]
    intro hlt
    exact absurd h (toRat_lt_of_exponent_lt hb' hb hlt).not_gt
  rcases hexponent.eq_or_lt with heq | hlt
  · refine ⟨1, by rw [heq, Nat.cast_one, one_mul], gap_one hb hb' heq.symm ?_⟩
    unfold toRat at h
    rw [heq] at h
    exact_mod_cast lt_of_mul_lt_mul_right h b'.step_pos.le
  · obtain ⟨k, hk⟩ : ∃ k : Nat, b'.exponent = (k + 1 : Nat) + b.exponent :=
      ⟨(b'.exponent - b.exponent - 1).toNat, by omega⟩
    refine ⟨2 * 2 ^ k, ?_, ?_⟩
    · rw [hk, zpow_add₀ two_ne_zero, zpow_natCast, pow_succ']
      push_cast
      rfl
    · cases hnarrow : b'.narrow with
      | true => exact gap_even_of_narrow hb hb' hnarrow (Nat.two_pow_pos k)
      | false => exact gap_even_of_not_narrow hb hb' hlt hnarrow (Nat.two_pow_pos k)

/-- The middle of two doubles is not below the upper midpoint of the smaller one, nor above the
    lower midpoint of the larger one. -/
theorem midpoint_bounds (hb : b.Legal) (hb' : b'.Legal) (h : b.toRat < b'.toRat) :
    2 * b.upper ≤ b.toRat + b'.toRat ∧ b.toRat + b'.toRat ≤ 2 * b'.lower := by
  obtain ⟨times, htimes, hgap⟩ := gap_of_toRat_lt hb hb' h
  have hlower := b'.four_mul_lower
  have habove : (b.significand + 1 : ℚ) ≤ b'.significand * times := by exact_mod_cast hgap.above
  have hbelow : (2 * b.significand + (if b'.narrow then 1 else 2 : Nat) * times : ℚ) ≤
      2 * (b'.significand * times) := by exact_mod_cast hgap.below
  have habove' := mul_le_mul_of_nonneg_right habove b.step_pos.le
  have hbelow' := mul_le_mul_of_nonneg_right hbelow b.step_pos.le
  rw [htimes] at hlower
  unfold upper toRat
  rw [htimes]
  constructor <;> linarith

/-- Where the midpoints of two doubles meet, one of the significands is odd. -/
theorem closed_eq_false_of_upper_eq_lower (hb : b.Legal) (hb' : b'.Legal)
    (h : b.toRat < b'.toRat) (hmeet : b.upper = b'.lower) (hclosed : b.closed = true) :
    b'.closed = false := by
  obtain ⟨times, htimes, hgap⟩ := gap_of_toRat_lt hb hb' h
  have hlower := b'.four_mul_lower
  apply hgap.odd _ hclosed
  have hsteps : (4 * b.significand + 2 + (if b'.narrow then 1 else 2 : Nat) * times : ℚ) =
      4 * (b'.significand * times) := by
    apply mul_right_cancel₀ b.step_pos.ne'
    rw [← hmeet, htimes] at hlower
    unfold upper at hlower
    linarith
  exact_mod_cast hsteps

theorem Covers.le_middle (hx : b.Covers x) (hb : b.Legal) (hb' : b'.Legal)
    (h : b.toRat < b'.toRat) : 2 * x ≤ b.toRat + b'.toRat := by
  have hupper := hx.bounds.2
  have hmiddle := (midpoint_bounds hb hb' h).1
  linarith

theorem Covers.middle_le (hx : b.Covers x) (hb : b.Legal) (hb' : b'.Legal)
    (h : b'.toRat < b.toRat) : b.toRat + b'.toRat ≤ 2 * x := by
  have hlower := hx.bounds.1
  have hmiddle := (midpoint_bounds hb' hb h).2
  linarith

/-- What is read as a double is no nearer to any other one. -/
theorem Covers.nearest (hx : b.Covers x) (hb : b.Legal) (hb' : b'.Legal) :
    |x - b.toRat| ≤ |x - b'.toRat| := by
  rcases lt_trichotomy b.toRat b'.toRat with hlt | heq | hlt
  · have hmiddle := hx.le_middle hb hb' hlt
    have hsquares := mul_nonneg (sub_nonneg.mpr hlt.le) (sub_nonneg.mpr hmiddle)
    exact sq_le_sq.mp (by linarith)
  · rw [heq]
  · have hmiddle := hx.middle_le hb hb' hlt
    have hsquares := mul_nonneg (sub_nonneg.mpr hlt.le) (sub_nonneg.mpr hmiddle)
    exact sq_le_sq.mp (by linarith)

/-- Of two doubles, what is read as the smaller one is not read as the larger one. -/
theorem Covers.not_covers (hx : b.Covers x) (hb : b.Legal) (hb' : b'.Legal)
    (h : b.toRat < b'.toRat) : ¬ b'.Covers x := by
  intro hx'
  have hupper := hx.bounds.2
  have hlower := hx'.bounds.1
  obtain ⟨hmiddle, hmiddle'⟩ := midpoint_bounds hb hb' h
  have hclosed := hx.closed_of_eq (.inr (by linarith))
  have hclosed' := hx'.closed_of_eq (.inl (by linarith))
  rw [closed_eq_false_of_upper_eq_lower hb hb' h (by linarith) hclosed] at hclosed'
  cases hclosed'

/-- No number is read as two doubles. -/
theorem eq_of_covers (hb : b.Legal) (hb' : b'.Legal) (hx : b.Covers x) (hx' : b'.Covers x) :
    b = b' := by
  rcases lt_trichotomy b.toRat b'.toRat with hlt | heq | hlt
  · exact absurd hx' (hx.not_covers hb hb' hlt)
  · exact eq_of_toRat_eq hb hb' heq
  · exact absurd hx (hx'.not_covers hb' hb hlt)

end Binary

end Calculator.Decimal
