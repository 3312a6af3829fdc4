import Calculator.Decimal.Reader
import Calculator.Decimal.Shortest
import Calculator.Proofs.Literal
import Calculator.Proofs.Rounding

/-!
# Shortest decimals

The search for the shortest decimal of a double finds what it is meant to find: a decimal that
is read as the double, with no more digits than any other such decimal, and nearest to the
double among those with as many digits. The search never fails, because the step of the grid
of seventeen digits is smaller than the rounding interval of every double.

Results:

* `Binary.holds_iff`: the exact comparisons on a grid are those of the rounding interval.
* `Binary.isNearest_of_nearest?`, `Binary.not_covers_of_nearest?`: what is taken on one grid.
* `Binary.leading_spec`: the power of ten of the first digit.
* `Binary.seventeen_digits`: the grid of seventeen digits always has a decimal that reads back.
* `Binary.exists_hit`: the grid that the search ends on.
* `Binary.isShortest_shortest`: the decimal that is found.
-/

namespace Calculator.Decimal

namespace Binary

variable {b : Binary} {power : Int} {point : Nat} {tie : Tie}

/-! ## Grids -/

theorem ten_zpow_pos (power : Int) : (0 : ℚ) < 10 ^ power := zpow_pos (by norm_num) power

/-- The steps of a grid that make one of a coarser grid. -/
theorem ten_pow_mul_zpow {n : Nat} {coarse fine : Int} (h : n = coarse - fine) :
    ((10 ^ n : Nat) * 10 ^ fine : ℚ) = 10 ^ coarse := by
  rw [Nat.cast_pow, Nat.cast_ofNat, ← zpow_natCast, ← zpow_add₀ (by norm_num), h,
    sub_add_cancel]

/-- A count of quarter steps and a point of a grid are compared as the numbers that they are,
    both times one number that makes them whole. -/
theorem exists_scale (b : Binary) (power : Int) : ∃ scale : ℚ, 0 < scale ∧
    (∀ count : Nat, ((count * (b.grid power).quarter : Nat) : ℚ) =
      scale * (count / 4 * 2 ^ b.exponent)) ∧
    ∀ point : Nat, ((point * (b.grid power).step : Nat) : ℚ) = scale * (point * 10 ^ power) := by
  have hsplit : ∀ (base : ℚ) (n : Int), base ≠ 0 →
      base ^ n.toNat = base ^ (-n).toNat * base ^ n := by
    intro base n hbase
    rw [← zpow_natCast, ← zpow_natCast, ← zpow_add₀ hbase]
    congr 1
    omega
  have htwo := hsplit 2 (b.exponent - 2) two_ne_zero
  have hten := hsplit 10 power (by norm_num)
  rw [zpow_sub₀ two_ne_zero, Int.neg_sub] at htwo
  refine ⟨2 ^ (2 - b.exponent).toNat * 10 ^ (-power).toNat, by positivity, ?_, ?_⟩
  · intro count
    simp only [grid, Nat.pow_eq]
    push_cast
    rw [htwo]
    ring
  · intro point
    simp only [grid, Nat.pow_eq]
    push_cast
    rw [hten]
    ring

theorem centre_steps (b : Binary) : (b.centre / 4 * 2 ^ b.exponent : ℚ) = b.toRat := by
  unfold centre toRat
  push_cast
  ring

theorem high_steps (b : Binary) : (b.high / 4 * 2 ^ b.exponent : ℚ) = b.upper := by
  unfold high centre upper
  push_cast
  ring

theorem low_steps (hb : 0 < b.significand) :
    (b.low / 4 * 2 ^ b.exponent : ℚ) = b.lower := by
  have hlow : (b.low : ℚ) = 4 * b.significand - (if b.narrow then 1 else 2 : Nat) := by
    unfold low centre
    rw [Nat.cast_sub (by split <;> omega)]
    push_cast
    rfl
  have hlower := b.four_mul_lower
  rw [← hlow] at hlower
  linarith

/-- The comparisons on a grid are those of the rounding interval. -/
theorem holds_iff (hb : 0 < b.significand) :
    b.holds (b.grid power) point = true ↔ b.Covers (point * 10 ^ power) := by
  obtain ⟨scale, hscale, hcount, hpoint⟩ := b.exists_scale power
  have hlow := hcount b.low
  have hhigh := hcount b.high
  have hpoint := hpoint point
  rw [low_steps hb] at hlow
  rw [high_steps] at hhigh
  unfold holds Covers
  split
  · rw [Bool.and_eq_true, decide_eq_true_iff, decide_eq_true_iff, ← @Nat.cast_le ℚ,
      ← @Nat.cast_le ℚ, hlow, hhigh, hpoint, mul_le_mul_iff_right₀ hscale,
      mul_le_mul_iff_right₀ hscale]
  · rw [Bool.and_eq_true, decide_eq_true_iff, decide_eq_true_iff, ← @Nat.cast_lt ℚ,
      ← @Nat.cast_lt ℚ, hlow, hhigh, hpoint, mul_lt_mul_iff_right₀ hscale,
      mul_lt_mul_iff_right₀ hscale]

theorem reaches_iff : b.reaches power = true ↔ 10 ^ power ≤ b.toRat := by
  obtain ⟨scale, hscale, hcount, hpoint⟩ := b.exists_scale power
  have hcentre := hcount b.centre
  have hone := hpoint 1
  rw [centre_steps] at hcentre
  rw [Nat.one_mul, Nat.cast_one, one_mul] at hone
  rw [reaches, decide_eq_true_iff, ← @Nat.cast_le ℚ, hcentre, hone,
    mul_le_mul_iff_right₀ hscale]

/-! ## The neighbours on a grid -/

theorem below_mul_le (b : Binary) (power : Int) :
    (b.below (b.grid power) * 10 ^ power : ℚ) ≤ b.toRat := by
  obtain ⟨scale, hscale, hcount, hpoint⟩ := b.exists_scale power
  rw [← mul_le_mul_iff_right₀ hscale, ← hpoint, ← b.centre_steps, ← hcount, Nat.cast_le]
  exact Nat.div_mul_le_self _ _

theorem lt_below_succ_mul (b : Binary) (power : Int) :
    b.toRat < (b.below (b.grid power) + 1 : Nat) * 10 ^ power := by
  obtain ⟨scale, hscale, hcount, hpoint⟩ := b.exists_scale power
  have hstep : 0 < (b.grid power).step :=
    Nat.mul_pos (Nat.pow_pos (by decide)) (Nat.pow_pos (by decide))
  rw [← mul_lt_mul_iff_right₀ hscale, ← hpoint, ← b.centre_steps, ← hcount, Nat.cast_lt]
  exact (Nat.div_lt_iff_lt_mul hstep).mp (Nat.lt_succ_self _)

/-- The point is read as the double, and none that is read as it lies nearer. -/
structure IsNearest (b : Binary) (power : Int) (point : Nat) : Prop where
  covers : b.Covers (point * 10 ^ power)
  least : ∀ k : Nat, b.Covers (k * 10 ^ power) →
    |b.toRat - point * 10 ^ power| ≤ |b.toRat - k * 10 ^ power|

theorem mul_ten_zpow_le {k k' : Nat} (power : Int) (h : k ≤ k') :
    (k * 10 ^ power : ℚ) ≤ k' * 10 ^ power :=
  mul_le_mul_of_nonneg_right (by exact_mod_cast h) (ten_zpow_pos power).le

/-- The neighbour below is the best of the points below. -/
theorem below_best {k : Nat} (hk : k ≤ b.below (b.grid power)) (h : b.Covers (k * 10 ^ power)) :
    b.Covers (b.below (b.grid power) * 10 ^ power) ∧
      |b.toRat - b.below (b.grid power) * 10 ^ power| ≤ |b.toRat - k * 10 ^ power| := by
  have hle := mul_ten_zpow_le power hk
  have hvalue := b.below_mul_le power
  refine ⟨h.between b.covers_toRat hle hvalue, ?_⟩
  rw [abs_of_nonneg (by linarith), abs_of_nonneg (by linarith)]
  linarith

/-- The neighbour above is the best of the points above. -/
theorem above_best {k : Nat} (hk : b.below (b.grid power) + 1 ≤ k)
    (h : b.Covers (k * 10 ^ power)) :
    b.Covers ((b.below (b.grid power) + 1 : Nat) * 10 ^ power) ∧
      |b.toRat - (b.below (b.grid power) + 1 : Nat) * 10 ^ power| ≤
        |b.toRat - k * 10 ^ power| := by
  have hle := mul_ten_zpow_le power hk
  have hvalue := b.lt_below_succ_mul power
  refine ⟨b.covers_toRat.between h hvalue.le hle, ?_⟩
  rw [abs_of_nonpos (by linarith), abs_of_nonpos (by linarith)]
  linarith

theorem isNearest_below (hcovers : b.Covers (b.below (b.grid power) * 10 ^ power))
    (h : b.Covers ((b.below (b.grid power) + 1 : Nat) * 10 ^ power) →
      |b.toRat - b.below (b.grid power) * 10 ^ power| ≤
        |b.toRat - (b.below (b.grid power) + 1 : Nat) * 10 ^ power|) :
    b.IsNearest power (b.below (b.grid power)) := by
  refine ⟨hcovers, fun k hk => ?_⟩
  rcases Nat.lt_or_ge (b.below (b.grid power)) k with hlt | hge
  · obtain ⟨habove, hle⟩ := above_best hlt hk
    exact (h habove).trans hle
  · exact (below_best hge hk).2

theorem isNearest_above (hcovers : b.Covers ((b.below (b.grid power) + 1 : Nat) * 10 ^ power))
    (h : b.Covers (b.below (b.grid power) * 10 ^ power) →
      |b.toRat - (b.below (b.grid power) + 1 : Nat) * 10 ^ power| ≤
        |b.toRat - b.below (b.grid power) * 10 ^ power|) :
    b.IsNearest power (b.below (b.grid power) + 1) := by
  refine ⟨hcovers, fun k hk => ?_⟩
  rcases Nat.lt_or_ge (b.below (b.grid power)) k with hlt | hge
  · exact (above_best hlt hk).2
  · obtain ⟨hbelow, hle⟩ := below_best hge hk
    exact (h hbelow).trans hle

/-- The distances of the value from its neighbours, as the search counts them. -/
theorem exists_distances (b : Binary) (power : Int) : ∃ scale : ℚ, 0 < scale ∧
    ((b.centre * (b.grid power).quarter - b.below (b.grid power) * (b.grid power).step : Nat) : ℚ) =
      scale * |b.toRat - b.below (b.grid power) * 10 ^ power| ∧
    (((b.below (b.grid power) + 1) * (b.grid power).step - b.centre * (b.grid power).quarter :
      Nat) : ℚ) = scale * |b.toRat - (b.below (b.grid power) + 1 : Nat) * 10 ^ power| := by
  obtain ⟨scale, hscale, hcount, hpoint⟩ := b.exists_scale power
  have hbelow := b.below_mul_le power
  have habove := (b.lt_below_succ_mul power).le
  refine ⟨scale, hscale, ?_, ?_⟩
  · rw [abs_of_nonneg (sub_nonneg.mpr hbelow), Nat.cast_sub, hcount, hpoint, centre_steps]
    · ring
    · exact Nat.div_mul_le_self _ _
  · rw [abs_of_nonpos (sub_nonpos.mpr habove), Nat.cast_sub, hcount, hpoint, centre_steps]
    · ring
    · rw [← @Nat.cast_le ℚ, hcount, hpoint, centre_steps, mul_le_mul_iff_right₀ hscale]
      exact habove

/-- What is taken on a grid is nearest. -/
theorem isNearest_of_nearest? (hb : 0 < b.significand)
    (h : b.nearest? tie (b.grid power) = some point) : b.IsNearest power point := by
  obtain ⟨scale, hscale, hshort, hlong⟩ := b.exists_distances power
  unfold nearest? at h
  simp only at h
  split at h
  next hbelow habove =>
    rw [holds_iff hb] at hbelow habove
    generalize b.centre * (b.grid power).quarter -
      b.below (b.grid power) * (b.grid power).step = short at *
    generalize (b.below (b.grid power) + 1) * (b.grid power).step -
      b.centre * (b.grid power).quarter = long at *
    have hfirst : short ≤ long → b.IsNearest power (b.below (b.grid power)) := fun hle =>
      isNearest_below hbelow fun _ => by
        rwa [← mul_le_mul_iff_right₀ hscale, ← hshort, ← hlong, Nat.cast_le]
    have hsecond : long ≤ short → b.IsNearest power (b.below (b.grid power) + 1) := fun hle =>
      isNearest_above habove fun _ => by
        rwa [← mul_le_mul_iff_right₀ hscale, ← hshort, ← hlong, Nat.cast_le]
    split at h
    next hlt =>
      cases h
      exact hfirst hlt.le
    next hge =>
      split at h
      next hgt =>
        cases h
        exact hsecond hgt.le
      next hle =>
        cases tie with
        | up =>
          cases h
          exact hsecond (not_lt.mp hge)
        | toEven =>
          simp only [Option.some.injEq] at h
          subst h
          split
          · exact hfirst (not_lt.mp hle)
          · exact hsecond (not_lt.mp hge)
  next hbelow habove =>
    cases h
    rw [holds_iff hb] at hbelow
    apply isNearest_below hbelow
    intro h
    rw [← holds_iff hb, habove] at h
    cases h
  next hbelow habove =>
    cases h
    rw [holds_iff hb] at habove
    apply isNearest_above habove
    intro h
    rw [← holds_iff hb, hbelow] at h
    cases h
  next => cases h

/-- Where nothing is taken on a grid, none of its points is read as the double. -/
theorem not_covers_of_nearest? (hb : 0 < b.significand)
    (h : b.nearest? tie (b.grid power) = none) (k : Nat) : ¬ b.Covers (k * 10 ^ power) := by
  unfold nearest? at h
  simp only at h
  split at h
  next => split_ifs at h <;> cases tie <;> cases h
  next => cases h
  next => cases h
  next hbelow habove =>
    intro hk
    rcases Nat.lt_or_ge (b.below (b.grid power)) k with hlt | hge
    · have hcovers := (above_best hlt hk).1
      rw [← holds_iff hb, habove] at hcovers
      cases hcovers
    · have hcovers := (below_best hge hk).1
      rw [← holds_iff hb, hbelow] at hcovers
      cases hcovers

/-! ## The first digit -/

theorem two_zpow_log2_le (hb : 0 < b.significand) :
    (2 : ℚ) ^ ((b.significand.log2 : Int) + b.exponent) ≤ b.toRat := by
  rw [zpow_add₀ two_ne_zero, zpow_natCast]
  apply mul_le_mul_of_nonneg_right _ b.step_pos.le
  exact_mod_cast Nat.log2_self_le hb.ne'

theorem lt_two_zpow_log2 (b : Binary) :
    b.toRat < (2 : ℚ) ^ ((b.significand.log2 : Int) + b.exponent + 1) := by
  rw [add_right_comm, zpow_add₀ two_ne_zero]
  apply mul_lt_mul_of_pos_right _ b.step_pos
  exact_mod_cast Nat.lt_log2_self

/-- The base two logarithms of doubles. -/
theorem Legal.log2_bounds (hb : b.Legal) :
    -1074 ≤ (b.significand.log2 : Int) + b.exponent ∧
      (b.significand.log2 : Int) + b.exponent ≤ 1023 := by
  have hlog : b.significand.log2 < 53 := by
    rw [Nat.log2_lt hb.pos.ne']
    exact hb.lt
  have hleast := hb.least
  have hgreatest := hb.greatest
  omega

section

variable {p q : Nat} {ten two : Int}

/-- Powers are compared by two that are close to each other, `10 ^ p` and `2 ^ q`. -/
theorem ten_zpow_le_two_zpow (hq : q ≠ 0) (h : (10 : ℚ) ^ p ≤ 2 ^ q) (htwo : 0 ≤ two)
    (hten : q * ten ≤ p * two) : (10 : ℚ) ^ ten ≤ 2 ^ two := by
  rw [← pow_le_pow_iff_left₀ (ten_zpow_pos ten).le (zpow_pos two_pos two).le hq]
  calc ((10 : ℚ) ^ ten) ^ q = 10 ^ (q * ten) := by rw [← zpow_natCast, ← zpow_mul, mul_comm]
    _ ≤ 10 ^ (p * two) := zpow_le_zpow_right₀ (by norm_num) hten
    _ = (10 ^ p) ^ two := by rw [zpow_mul, zpow_natCast]
    _ ≤ (2 ^ q) ^ two := zpow_le_zpow_left₀ htwo (by positivity) h
    _ = ((2 : ℚ) ^ two) ^ q := by
      rw [← zpow_natCast, ← zpow_natCast, ← zpow_mul, ← zpow_mul, mul_comm]

theorem two_zpow_le_ten_zpow (hq : q ≠ 0) (h : (2 : ℚ) ^ q ≤ 10 ^ p) (htwo : 0 ≤ two)
    (hten : p * two ≤ q * ten) : (2 : ℚ) ^ two ≤ 10 ^ ten := by
  rw [← pow_le_pow_iff_left₀ (zpow_pos two_pos two).le (ten_zpow_pos ten).le hq]
  calc ((2 : ℚ) ^ two) ^ q = (2 ^ q) ^ two := by
        rw [← zpow_natCast, ← zpow_natCast, ← zpow_mul, ← zpow_mul, mul_comm]
    _ ≤ (10 ^ p) ^ two := zpow_le_zpow_left₀ htwo (by positivity) h
    _ = 10 ^ (p * two) := by rw [zpow_mul, zpow_natCast]
    _ ≤ 10 ^ (q * ten) := zpow_le_zpow_right₀ (by norm_num) hten
    _ = ((10 : ℚ) ^ ten) ^ q := by rw [← zpow_natCast, ← zpow_mul, mul_comm]

/-- The guess at the power of ten is wrong by one at most. -/
theorem ten_zpow_guess_le (hleast : -1074 ≤ two) (hgreatest : two ≤ 1023) :
    (10 : ℚ) ^ (two * 30103 / 100000 - 1) ≤ 2 ^ two := by
  rcases le_total 0 two with hpos | hneg
  · exact ten_zpow_le_two_zpow (p := 59) (q := 196) (by decide) (by norm_num) hpos (by omega)
  · rw [← inv_le_inv₀ (zpow_pos two_pos _) (ten_zpow_pos _), ← zpow_neg, ← zpow_neg]
    exact two_zpow_le_ten_zpow (p := 28) (q := 93) (by decide) (by norm_num) (by omega) (by omega)

theorem le_ten_zpow_guess (hleast : -1074 ≤ two) (hgreatest : two ≤ 1023) :
    (2 : ℚ) ^ (two + 1) ≤ 10 ^ (two * 30103 / 100000 + 2) := by
  rcases le_total 0 (two + 1) with hpos | hneg
  · exact two_zpow_le_ten_zpow (p := 28) (q := 93) (by decide) (by norm_num) hpos (by omega)
  · rw [← inv_le_inv₀ (ten_zpow_pos _) (zpow_pos two_pos _), ← zpow_neg, ← zpow_neg]
    exact ten_zpow_le_two_zpow (p := 59) (q := 196) (by decide) (by norm_num) (by omega) (by omega)

end

/-- The first digit stands for the largest power of ten that is not above the value. -/
theorem leading_spec (hb : b.Legal) :
    (10 : ℚ) ^ b.leading ≤ b.toRat ∧ b.toRat < 10 ^ (b.leading + 1) := by
  obtain ⟨hleast, hgreatest⟩ := hb.log2_bounds
  have hlow := (ten_zpow_guess_le hleast hgreatest).trans (two_zpow_log2_le hb.pos)
  have hhigh := b.lt_two_zpow_log2.trans_le (le_ten_zpow_guess hleast hgreatest)
  unfold leading
  simp only
  split
  next habove =>
    rw [reaches_iff] at habove
    exact ⟨habove, by rwa [add_assoc]⟩
  next habove =>
    rw [reaches_iff, not_le] at habove
    split
    next hguess =>
      rw [reaches_iff] at hguess
      exact ⟨hguess, habove⟩
    next hguess =>
      rw [reaches_iff, not_le] at hguess
      exact ⟨hlow, by rwa [sub_add_cancel]⟩

/-! ## The search -/

/-- A grid that is finer than the rounding interval has a point in it. -/
theorem exists_covers (h : 10 ^ power < b.upper - b.lower) :
    ∃ k : Nat, b.Covers (k * 10 ^ power) := by
  have hbelow := b.below_mul_le power
  have habove := b.lt_below_succ_mul power
  have hlower := b.lower_lt_toRat
  have hupper := b.toRat_lt_upper
  rcases lt_or_ge b.lower (b.below (b.grid power) * 10 ^ power) with hlt | hge
  · exact ⟨_, covers_of_between hlt (by linarith)⟩
  · refine ⟨b.below (b.grid power) + 1, covers_of_between (by linarith) ?_⟩
    push_cast
    linarith

/-- The grid of seventeen digits is finer than the rounding interval. -/
theorem seventeen_digits (hb : b.Legal) : 10 ^ (b.leading - 16) < b.upper - b.lower := by
  have hstep := b.step_pos
  have hlower := b.four_mul_lower
  have hdigits : (10 : ℚ) ^ (b.leading - 16) * 10 ^ 16 ≤ b.significand * 2 ^ b.exponent := by
    rw [← zpow_natCast, ← zpow_add₀ (by norm_num), Nat.cast_ofNat, sub_add_cancel]
    exact (leading_spec hb).1
  unfold upper
  cases hnarrow : b.narrow with
  | true =>
    -- three quarters of a step, and the value is less than half of `10 ^ 16` steps
    obtain ⟨hsignificand, _⟩ := hb.narrow_iff.mp hnarrow
    rw [hnarrow, if_pos rfl] at hlower
    rw [hsignificand, fractionBound_eq] at hdigits hlower ⊢
    push_cast at hdigits hlower ⊢
    linarith
  | false =>
    -- one step, and the value is less than `10 ^ 16` steps
    have hsignificand : (b.significand : ℚ) ≤ 2 * fractionBound := by exact_mod_cast hb.lt.le
    have hsteps := mul_le_mul_of_nonneg_right hsignificand hstep.le
    rw [hnarrow, if_neg Bool.false_ne_true] at hlower
    rw [fractionBound_eq] at hsteps
    push_cast at hsteps hlower ⊢
    linarith

theorem mem_powers : power ∈ b.powers ↔ b.leading - 16 ≤ power ∧ power ≤ b.leading := by
  unfold powers
  rw [List.mem_map]
  constructor
  · rintro ⟨n, hn, rfl⟩
    rw [List.mem_range] at hn
    omega
  · intro h
    refine ⟨(b.leading - power).toNat, ?_, by omega⟩
    rw [List.mem_range]
    omega

/-- The grids are searched from the coarsest one on. -/
theorem pairwise_powers (b : Binary) : b.powers.Pairwise (· > ·) := by
  unfold powers
  rw [List.pairwise_map]
  apply List.pairwise_lt_range.imp
  intro m n h
  omega

/-- The search ends on the first grid with a point that is read as the double, and there is
    one. -/
theorem exists_hit (hb : b.Legal) (tie : Tie) : ∃ power ∈ b.powers, ∃ point,
    b.shortest tie = Digits.ofPoint point power ∧ b.IsNearest power point ∧
      ∀ coarser ∈ b.powers, power < coarser → ∀ k : Nat, ¬ b.Covers (k * 10 ^ coarser) := by
  unfold shortest
  simp only
  cases hhit : b.powers.findSome? fun power =>
      (b.nearest? tie (b.grid power)).map fun point => Digits.ofPoint point power with
  | none =>
    rw [List.findSome?_eq_none_iff] at hhit
    have hlast := hhit (b.leading - 16) (mem_powers.mpr (by omega))
    obtain ⟨k, hk⟩ := exists_covers (seventeen_digits hb)
    exact absurd hk (not_covers_of_nearest? hb.pos (Option.map_eq_none_iff.mp hlast) k)
  | some d =>
    obtain ⟨before, power, after, hpowers, hd, hbefore⟩ := List.findSome?_eq_some_iff.mp hhit
    obtain ⟨point, hpoint, rfl⟩ := Option.map_eq_some_iff.mp hd
    have hpairwise := b.pairwise_powers
    rw [hpowers, List.pairwise_append, List.pairwise_cons] at hpairwise
    obtain ⟨_, ⟨hafter, _⟩, _⟩ := hpairwise
    refine ⟨power, by simp [hpowers], point, rfl, isNearest_of_nearest? hb.pos hpoint, ?_⟩
    intro coarser hmem hlt
    rw [hpowers, List.mem_append, List.mem_cons] at hmem
    rcases hmem with hmem | rfl | hmem
    · exact not_covers_of_nearest? hb.pos (Option.map_eq_none_iff.mp (hbefore coarser hmem))
    · exact absurd hlt (lt_irrefl _)
    · exact absurd (hafter coarser hmem) hlt.not_gt

theorem IsNearest.le {k : Nat} (h : b.IsNearest power point) (hk : b.toRat ≤ k * 10 ^ power) :
    point ≤ k := by
  by_contra hlt
  have hstep : (k * 10 ^ power : ℚ) < point * 10 ^ power :=
    mul_lt_mul_of_pos_right (by exact_mod_cast not_le.mp hlt) (ten_zpow_pos power)
  have hleast := h.least k (b.covers_toRat.between h.covers hk hstep.le)
  rw [abs_of_nonpos (by linarith), abs_of_nonpos (by linarith)] at hleast
  linarith

/-- A decimal of at most `n` digits that is read as the double is on the grid of `n` digits, or
    the power of ten of the first digit is, and lies nearer. -/
theorem exists_on_grid (hb : b.Legal) {k n : Nat} {exponent : Int} (hn : 0 < n) (hk : k < 10 ^ n)
    (h : b.Covers (k * 10 ^ exponent)) :
    ∃ j : Nat, b.Covers (j * 10 ^ (b.leading - n + 1)) ∧
      |b.toRat - j * 10 ^ (b.leading - n + 1)| ≤ |b.toRat - k * 10 ^ exponent| := by
  rcases le_or_gt (b.leading - n + 1) exponent with hle | hlt
  · refine ⟨k * 10 ^ (exponent - (b.leading - n + 1)).toNat, ?_⟩
    have hsteps : ((10 ^ (exponent - (b.leading - n + 1)).toNat : Nat) *
        10 ^ (b.leading - n + 1) : ℚ) = 10 ^ exponent := ten_pow_mul_zpow (by omega)
    rw [Nat.cast_mul, mul_assoc, hsteps]
    exact ⟨h, le_rfl⟩
  · obtain ⟨hleading, _⟩ := leading_spec hb
    have hsteps : ((10 ^ (n - 1) : Nat) * 10 ^ (b.leading - n + 1) : ℚ) = 10 ^ b.leading :=
      ten_pow_mul_zpow (by omega)
    refine ⟨10 ^ (n - 1), ?_⟩
    rw [hsteps]
    have hbelow : (k * 10 ^ exponent : ℚ) ≤ 10 ^ b.leading := by
      calc (k * 10 ^ exponent : ℚ) ≤ (10 ^ n : Nat) * 10 ^ exponent := mul_ten_zpow_le _ hk.le
        _ ≤ (10 ^ n : Nat) * 10 ^ (b.leading - n) := by
          apply mul_le_mul_of_nonneg_left _ (Nat.cast_nonneg _)
          exact zpow_le_zpow_right₀ (by norm_num) (by omega)
        _ = 10 ^ b.leading := ten_pow_mul_zpow (by omega)
    refine ⟨h.between b.covers_toRat hbelow hleading, ?_⟩
    rw [abs_of_nonneg (by linarith), abs_of_nonneg (by linarith)]
    linarith

end Binary

/-! ## Digits -/

/-- The number that a decimal is. -/
def Digits.toRat (d : Digits) : ℚ :=
  ofDigits d.digits * 10 ^ (d.exponent + 1 - d.digits.length)

theorem ofDigits_append (cs ds : List Char) :
    ofDigits (cs ++ ds) = 10 ^ ds.length * ofDigits cs + ofDigits ds := by
  unfold ofDigits
  rw [← Nat.ofDigitChars_eq_foldl, ← Nat.ofDigitChars_eq_foldl, ← Nat.ofDigitChars_eq_foldl,
    Nat.ofDigitChars_append, Nat.ofDigitChars_eq_ofDigitChars_zero]

theorem ofDigits_zeros (n : Nat) : ofDigits (List.replicate n '0') = 0 := by
  unfold ofDigits
  rw [← Nat.ofDigitChars_eq_foldl, Nat.ofDigitChars_replicate_zero, Nat.mul_zero]

/-- What is cut off the end of a text are zeros. -/
theorem exists_zeros (cs : List Char) :
    ∃ n, cs = (cs.reverse.dropWhile (· == '0')).reverse ++ List.replicate n '0' := by
  refine ⟨(cs.reverse.takeWhile (· == '0')).length, ?_⟩
  have hzeros : cs.reverse.takeWhile (· == '0') =
      List.replicate (cs.reverse.takeWhile (· == '0')).length '0' := by
    apply List.eq_replicate_of_mem
    intro c hc
    exact beq_iff_eq.mp (List.all_eq_true.mp List.all_takeWhile c hc)
  rw [← List.reverse_replicate, ← hzeros, ← List.reverse_append,
    List.takeWhile_append_dropWhile, List.reverse_reverse]

theorem Digits.toRat_ofPoint (point : Nat) (power : Int) :
    (Digits.ofPoint point power).toRat = point * 10 ^ power := by
  obtain ⟨n, hn⟩ := exists_zeros (Nat.toDigits 10 point)
  have hvalue := congrArg ofDigits hn
  have hlength := congrArg List.length hn
  rw [Json.Number.ofDigits_toDigits, ofDigits_append, ofDigits_zeros, List.length_replicate,
    Nat.add_zero] at hvalue
  rw [List.length_append, List.length_replicate] at hlength
  unfold toRat ofPoint
  simp only
  rw [hlength]
  generalize ((Nat.toDigits 10 point).reverse.dropWhile (· == '0')).reverse = ds at hvalue ⊢
  have hexponent : power + (ds.length + n : Nat) - 1 + 1 - ds.length = n + power := by
    push_cast
    ring
  rw [hvalue, hexponent, zpow_add₀ (by norm_num), zpow_natCast]
  push_cast
  ring

/-- A point that has one digit more than `n` only if it is `10 ^ n` is written with `n`. -/
theorem Digits.length_ofPoint_le {point n : Nat} (hn : 0 < n) (h : point ≤ 10 ^ n)
    (power : Int) : (Digits.ofPoint point power).digits.length ≤ n := by
  have hcut : ∀ cs : List Char,
      (cs.reverse.dropWhile (· == '0')).reverse.length ≤ cs.length := by
    intro cs
    have hsuffix := (List.dropWhile_suffix (l := cs.reverse) (· == '0')).length_le
    rwa [List.length_reverse] at hsuffix ⊢
  unfold ofPoint
  simp only
  rcases h.lt_or_eq with hlt | rfl
  · exact (hcut _).trans ((Nat.length_toDigits_le_iff (by decide) hn).mpr hlt)
  · obtain ⟨m, rfl⟩ := Nat.exists_eq_succ_of_ne_zero hn.ne'
    have hsplit : Nat.toDigits 10 (10 ^ (m + 1)) = Nat.toDigits 10 (10 ^ m) ++ ['0'] := by
      rw [pow_succ']
      exact (Nat.toDigits_append_toDigits (b := 10) (d := 0) (by decide)
        (Nat.pow_pos (by decide)) (by decide)).symm
    rw [hsplit, List.reverse_append, List.reverse_singleton, List.singleton_append,
      List.dropWhile_cons_of_pos rfl]
    apply (hcut _).trans
    rw [Nat.length_toDigits_le_iff (by decide) hn]
    exact Nat.pow_lt_pow_right (by decide) (Nat.lt_succ_self m)

/-- The decimal is read as the double, no decimal with fewer digits is, and of those with as
    many digits none that is read as the double is nearer to it. -/
structure Binary.IsShortest (b : Binary) (d : Digits) : Prop where
  covers : b.Covers d.toRat
  fewest : ∀ (k : Nat) (exponent : Int), b.Covers (k * 10 ^ exponent) →
    d.digits.length ≤ (Nat.toDigits 10 k).length
  nearest : ∀ (k : Nat) (exponent : Int), b.Covers (k * 10 ^ exponent) →
    (Nat.toDigits 10 k).length = d.digits.length →
    |b.toRat - d.toRat| ≤ |b.toRat - k * 10 ^ exponent|

/-- **The shortest decimal.** The search finds, for the magnitude of every double, a decimal
    that is read as the double, with the fewest digits, and nearest to it among those. -/
theorem Binary.isShortest_shortest {b : Binary} (hb : b.Legal) (tie : Tie) :
    b.IsShortest (b.shortest tie) := by
  obtain ⟨power, hpower, point, hshortest, hnearest, hcoarser⟩ := exists_hit hb tie
  obtain ⟨hfinest, hcoarsest⟩ := mem_powers.mp hpower
  obtain ⟨n, rfl⟩ : ∃ n : Nat, power = b.leading - n + 1 :=
    ⟨(b.leading - power + 1).toNat, by omega⟩
  have hlength : (b.shortest tie).digits.length ≤ n := by
    rw [hshortest]
    apply Digits.length_ofPoint_le (by omega)
    apply hnearest.le
    have htop : ((10 ^ n : Nat) * 10 ^ (b.leading - n + 1) : ℚ) = 10 ^ (b.leading + 1) :=
      ten_pow_mul_zpow (by omega)
    rw [htop]
    exact (leading_spec hb).2.le
  -- fewer digits would be on a coarser grid, and the search would have ended there
  have hfewest : ∀ (k : Nat) (exponent : Int), b.Covers (k * 10 ^ exponent) →
      n ≤ (Nat.toDigits 10 k).length := by
    intro k exponent h
    by_contra hfewer
    have hpos := Nat.length_toDigits_pos (b := 10) (n := k)
    have hk := (Nat.length_toDigits_le_iff (by decide) hpos).mp (le_refl _)
    obtain ⟨j, hj, _⟩ := exists_on_grid hb hpos hk h
    exact hcoarser _ (mem_powers.mpr (by omega)) (by omega) j hj
  constructor
  · rw [hshortest, Digits.toRat_ofPoint]
    exact hnearest.covers
  · intro k exponent h
    exact hlength.trans (hfewest k exponent h)
  · intro k exponent h hsame
    have hk : k < 10 ^ n := by
      rw [← Nat.length_toDigits_le_iff (by decide) (by omega)]
      omega
    obtain ⟨j, hj, hnearer⟩ := exists_on_grid hb (by omega) hk h
    rw [hshortest, Digits.toRat_ofPoint]
    exact (hnearest.least j hj).trans hnearer

end Calculator.Decimal
