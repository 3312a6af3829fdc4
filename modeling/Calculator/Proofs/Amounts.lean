import Calculator.Json
import Calculator.Proofs.Shortest

/-!
# The literals of doubles

The shortest decimal of a finite double other than zero begins with a digit that is not
zero: the point zero of a grid lies below the interval of the double, so it is never
chosen. Hence every layout writes a finite double as a number literal, with or without a
point and with or without an exponent. The number that the literal stands for is that decimal,
which is read as the double and as no other one.

Results:

* `Digits.proper_shortest`: the digits of a shortest decimal.
* `Layout.isMagnitude_positional`, `Layout.isMagnitude_exponent`: what a layout writes.
* `Layout.spelled_write`: every layout writes a finite double as a literal that is read as it.
* `Json.Number.RoundsTo.unique`: a literal is read as one double.
* `Json.amount_write_of_not_isFinite`: structured texts have `null` for any other double.
-/

namespace Calculator.Decimal

open Json (Number)

/-! ## Shortest decimals -/

/-- The decimal has digits, and the first of them is zero for zero alone. -/
structure Digits.Proper (d : Digits) : Prop where
  digits : Number.Digits d.digits
  head : d.digits.head? = some '0' → d = ⟨['0'], 0⟩

theorem Digits.proper_zero : Digits.Proper ⟨['0'], 0⟩ :=
  ⟨Number.whole_zero.1, fun _ => rfl⟩

/-- Digits that begin as the decimal does are the digits before a point. -/
theorem Digits.Proper.whole {d : Digits} {cs : List Char} (h : d.Proper) (hcs : Number.Digits cs)
    (hhead : cs.head? = d.digits.head?) (hzero : d = ⟨['0'], 0⟩ → cs = ['0']) :
    Number.Whole cs := by
  refine ⟨hcs, fun hc => hzero (h.head ?_)⟩
  rw [← hhead, hc]

/-- Zeros at the end are cut off, and the first digit stays. -/
theorem exists_cons_cut {c : Char} (hc : c ≠ '0') (cs : List Char) :
    ∃ ds, ((c :: cs).reverse.dropWhile (· == '0')).reverse = c :: ds ∧ ∀ d ∈ ds, d ∈ cs := by
  have hkeep : ([c] : List Char).dropWhile (· == '0') = [c] :=
    Run.dropWhile_eq_self (Run.takeWhile_eq_nil fun d hd => by
      cases hd
      exact beq_eq_false_iff_ne.mpr hc)
  rw [List.reverse_cons, List.dropWhile_append]
  split
  · exact ⟨[], by rw [hkeep]; rfl, nofun⟩
  · refine ⟨(cs.reverse.dropWhile (· == '0')).reverse, by rw [List.reverse_append]; rfl, ?_⟩
    intro d hd
    exact List.mem_reverse.mp (List.dropWhile_subset _ (List.mem_reverse.mp hd))

theorem Digits.proper_ofPoint {point : Nat} (h : point ≠ 0) (power : Int) :
    (Digits.ofPoint point power).Proper := by
  obtain ⟨c, cs, hcs⟩ := List.exists_cons_of_ne_nil (Nat.toDigits_ne_nil (b := 10) (n := point))
  have hdigits : ∀ d ∈ c :: cs, d.isDigit = true := by
    rw [← hcs]
    exact (Number.digits_toDigits point).2
  have hc : c ≠ '0' := by
    rintro rfl
    exact h (Number.head?_toDigits point (by rw [hcs]; rfl))
  obtain ⟨ds, hcut, hds⟩ := exists_cons_cut hc cs
  have hall : (Digits.ofPoint point power).digits = c :: ds := by
    rw [Digits.ofPoint, hcs]
    exact hcut
  constructor
  · rw [hall]
    refine ⟨List.cons_ne_nil _ _, fun d hd => ?_⟩
    rcases List.mem_cons.mp hd with rfl | hd
    · exact hdigits d List.mem_cons_self
    · exact hdigits d (List.mem_cons_of_mem _ (hds d hd))
  · intro hhead
    rw [hall] at hhead
    exact absurd (Option.some.inj hhead) hc

/-- The point zero is read as no double but zero, so it is not chosen. -/
theorem Binary.IsNearest.ne_zero {b : Binary} {power : Int} {point : Nat} (hb : 0 < b.significand)
    (h : b.IsNearest power point) : point ≠ 0 := by
  rintro rfl
  have hlower := h.covers.bounds.1
  rw [Nat.cast_zero, zero_mul] at hlower
  exact absurd (lower_pos hb) hlower.not_gt

/-- The digits of a shortest decimal. -/
theorem Digits.proper_shortest {b : Binary} (hb : b.Legal) (tie : Tie) :
    (b.shortest tie).Proper := by
  obtain ⟨power, _, point, hshortest, hnearest, _⟩ := Binary.exists_hit hb tie
  rw [hshortest]
  exact proper_ofPoint (hnearest.ne_zero hb.pos) power

end Calculator.Decimal

/-! ## The numbers that literals stand for -/

namespace Calculator.Json.Number

open Decimal (decode ofDigits)

/-- The power of ten that the exponent of a literal asks for. -/
def power (n : Number) : Int :=
  match n.exponent with
  | none => 0
  | some (true, digits) => -ofDigits digits
  | some (false, digits) => ofDigits digits

/-- The number that a literal stands for, without its sign. -/
def toRat (n : Number) : ℚ := ofDigits (n.whole ++ n.fraction) * 10 ^ (n.power - n.fraction.length)

/-- The literal is read as the double: it has the sign of the double and lies in its rounding
    interval. -/
def RoundsTo (n : Number) (x : Float) : Prop :=
  match decode x with
  | .zero negative => n.negative = negative ∧ n.toRat = 0
  | .finite negative b => n.negative = negative ∧ b.Covers n.toRat
  | _ => False

end Calculator.Json.Number

namespace Calculator.Decimal

open Json (Number)

/-! ## Layouts -/

/-- The text is a literal without its sign, and stands for the number. -/
def IsMagnitude (x : ℚ) (cs : List Char) : Prop :=
  ∃ whole fraction exponent tail, Number.Whole whole ∧ (∀ c ∈ fraction, c.isDigit = true) ∧
    Number.ExponentSpelled exponent tail ∧ cs = whole ++ (Number.fractionChars fraction ++ tail) ∧
    Number.toRat ⟨false, whole, fraction, exponent⟩ = x

theorem IsMagnitude.spelled {x : ℚ} {cs : List Char} (h : IsMagnitude x cs) (negative : Bool) :
    ∃ n : Number, n.Spelled (Layout.signed negative cs).toList ∧ n.negative = negative ∧
      n.toRat = x := by
  obtain ⟨whole, fraction, exponent, tail, hwhole, hfraction, htail, rfl, hx⟩ := h
  refine ⟨⟨negative, whole, fraction, exponent⟩, ⟨hwhole, hfraction, tail, htail, ?_⟩, rfl, hx⟩
  rw [Layout.signed, String.toList_ofList]
  cases negative <;> rfl

theorem fractionChars_of_ne_nil {cs : List Char} (h : cs ≠ []) :
    Number.fractionChars cs = '.' :: cs := by
  obtain ⟨c, cs, rfl⟩ := List.exists_cons_of_ne_nil h
  rfl

/-- The digits of a decimal, with zeros behind them and the point moved, stand for it. -/
theorem toRat_eq_of_zeros {n : Number} {d : Digits} (zeros : Nat)
    (hdigits : ofDigits (n.whole ++ n.fraction) = 10 ^ zeros * ofDigits d.digits)
    (hpower : n.power - n.fraction.length + zeros = d.exponent + 1 - d.digits.length) :
    n.toRat = d.toRat := by
  unfold Number.toRat Digits.toRat
  rw [hdigits, ← hpower, zpow_add₀ (by norm_num), zpow_natCast]
  push_cast
  ring

namespace Layout

variable {d : Digits}

theorem isDigit_zeros {count : Int} : ∀ c ∈ zeros count, c.isDigit = true := by
  intro c hc
  rw [List.eq_of_mem_replicate hc]
  rfl

theorem length_zeros (count : Int) : (zeros count).length = count.toNat := List.length_replicate

theorem ofDigits_zeros_append (count : Int) (cs : List Char) :
    ofDigits (zeros count ++ cs) = ofDigits cs := by
  rw [ofDigits_append, zeros, ofDigits_zeros, Nat.mul_zero, Nat.zero_add]

theorem ofDigits_append_zeros (cs : List Char) (count : Int) :
    ofDigits (cs ++ zeros count) = 10 ^ count.toNat * ofDigits cs := by
  rw [ofDigits_append, length_zeros, zeros, ofDigits_zeros, Nat.add_zero]

/-- A decimal below one has a zero before its point. -/
theorem isMagnitude_below_one (h : d.Proper) (hsmall : d.exponent < 0) :
    IsMagnitude d.toRat ('0' :: '.' :: zeros (-d.exponent - 1) ++ d.digits) := by
  have hne : zeros (-d.exponent - 1) ++ d.digits ≠ [] := by simp [h.digits.1]
  refine ⟨['0'], zeros (-d.exponent - 1) ++ d.digits, none, [], Number.whole_zero, ?_,
    .absent, ?_, ?_⟩
  · exact fun x hx => (List.mem_append.mp hx).elim (isDigit_zeros x) (h.digits.2 x)
  · rw [fractionChars_of_ne_nil hne, List.append_nil]
    rfl
  · apply toRat_eq_of_zeros 0
    · rw [pow_zero, Nat.one_mul]
      exact (ofDigits_zeros_append 1 _).trans (ofDigits_zeros_append _ _)
    · simp only [Number.power, List.length_append, length_zeros]
      omega

/-- A whole decimal is filled up with zeros. -/
theorem isMagnitude_whole (h : d.Proper) {places : Nat} (hplaces : places = d.exponent + 1)
    (hshort : d.digits.length ≤ places) (pointZero : Bool) :
    IsMagnitude d.toRat (d.digits ++ zeros (places - d.digits.length) ++
      if pointZero then ['.', '0'] else []) := by
  have hwhole : Number.Whole (d.digits ++ zeros (places - d.digits.length)) := by
    apply h.whole
    · refine ⟨by simp [h.digits.1], fun x hx => ?_⟩
      exact (List.mem_append.mp hx).elim (h.digits.2 x) (isDigit_zeros x)
    · exact List.head?_append_of_ne_nil _ h.digits.1
    · rintro rfl
      rw [hplaces]
      rfl
  cases pointZero with
  | true =>
    refine ⟨_, ['0'], none, [], hwhole, Number.whole_zero.1.2, .absent,
      by simp [Number.fractionChars], ?_⟩
    apply toRat_eq_of_zeros ((places - d.digits.length : Int).toNat + 1)
    · rw [ofDigits_append, ofDigits_append_zeros, pow_succ', Nat.mul_assoc]
      rfl
    · simp only [Number.power, List.length_singleton]
      omega
  | false =>
    refine ⟨_, [], none, [], hwhole, List.forall_mem_nil _, .absent,
      by simp [Number.fractionChars], ?_⟩
    apply toRat_eq_of_zeros (places - d.digits.length : Int).toNat
    · rw [List.append_nil, ofDigits_append_zeros]
    · simp only [Number.power, List.length_nil]
      omega

/-- Any other decimal has digits on both sides of its point. -/
theorem isMagnitude_split (h : d.Proper) {places : Nat} (hplaces : places = d.exponent + 1)
    (hpos : 0 < places) (hlong : places < d.digits.length) :
    IsMagnitude d.toRat (d.digits.take places ++ '.' :: d.digits.drop places) := by
  have hdrop : d.digits.drop places ≠ [] := by
    rw [Ne, List.drop_eq_nil_iff]
    omega
  have hwhole : Number.Whole (d.digits.take places) := by
    apply h.whole
    · refine ⟨?_, fun x hx => h.digits.2 x (List.mem_of_mem_take hx)⟩
      rw [Ne, List.take_eq_nil_iff]
      exact not_or.mpr ⟨hpos.ne', h.digits.1⟩
    · rw [List.head?_take, if_neg hpos.ne']
    · rintro rfl
      exact List.take_of_length_le hpos
  refine ⟨d.digits.take places, d.digits.drop places, none, [], hwhole,
    fun x hx => h.digits.2 x (List.mem_of_mem_drop hx), .absent, ?_, ?_⟩
  · rw [fractionChars_of_ne_nil hdrop, List.append_nil]
  · apply toRat_eq_of_zeros 0
    · rw [pow_zero, Nat.one_mul, List.take_append_drop]
    · simp only [Number.power, List.length_drop]
      omega

/-- A decimal with a point at its place is a literal without an exponent. -/
theorem isMagnitude_positional (l : Layout) (h : d.Proper) :
    IsMagnitude d.toRat (l.writePositional d) := by
  unfold writePositional
  split
  next hsmall => exact isMagnitude_below_one h hsmall
  next hlarge =>
    have hplaces : ((d.exponent.toNat + 1 : Nat) : Int) = d.exponent + 1 := by omega
    simp only
    split
    next hshort => exact isMagnitude_whole h hplaces hshort l.pointZero
    next hlong => exact isMagnitude_split h hplaces (Nat.succ_pos _) (not_le.mp hlong)

/-- A decimal with its point behind the first digit is a literal with an exponent. -/
theorem isMagnitude_exponent (l : Layout) (h : d.Proper) :
    IsMagnitude d.toRat (l.writeExponent d) := by
  obtain ⟨c, cs, hcs⟩ := List.exists_cons_of_ne_nil h.digits.1
  have hc : c.isDigit = true := h.digits.2 c (by rw [hcs]; exact List.mem_cons_self)
  have hwhole : Number.Whole [c] :=
    ⟨⟨nofun, fun x hx => by rw [List.mem_singleton.mp hx]; exact hc⟩, fun hhead => by
      rw [Option.some.inj hhead]⟩
  have hfraction : ∀ x ∈ cs, x.isDigit = true :=
    fun x hx => h.digits.2 x (by rw [hcs]; exact List.mem_cons_of_mem _ hx)
  have hdigits := Number.digits_toDigits d.exponent.natAbs
  have hpoint : (if cs.isEmpty then [] else '.' :: cs) = Number.fractionChars cs := by
    cases cs <;> rfl
  -- the exponent counts from the point behind the first digit
  have htoRat : ∀ exponent : Option (Bool × List Char),
      Number.power ⟨false, [c], cs, exponent⟩ = d.exponent →
        Number.toRat ⟨false, [c], cs, exponent⟩ = d.toRat := by
    intro exponent hpower
    apply toRat_eq_of_zeros 0
    · rw [hcs, pow_zero, Nat.one_mul]
      rfl
    · rw [hpower, hcs, List.length_cons]
      push_cast
      ring
  unfold writeExponent
  simp only [hcs, List.drop_succ_cons, List.drop_zero, List.take_succ_cons, List.take_zero, hpoint]
  by_cases hnegative : d.exponent < 0
  · rw [if_pos hnegative]
    refine ⟨[c], cs, _, _, hwhole, hfraction, .minus (.inl rfl) hdigits, by simp, htoRat _ ?_⟩
    simp only [Number.power, Number.ofDigits_toDigits]
    omega
  · have hpower : Number.power ⟨false, [c], cs,
        some (false, Nat.toDigits 10 d.exponent.natAbs)⟩ = d.exponent := by
      simp only [Number.power, Number.ofDigits_toDigits]
      omega
    rw [if_neg hnegative]
    cases l.plusSign with
    | true =>
      exact ⟨[c], cs, _, _, hwhole, hfraction, .plus (.inl rfl) hdigits, by simp, htoRat _ hpower⟩
    | false =>
      exact ⟨[c], cs, _, _, hwhole, hfraction, .unsigned (.inl rfl) hdigits, by simp,
        htoRat _ hpower⟩

theorem isMagnitude_writeDigits (l : Layout) (h : d.Proper) :
    IsMagnitude d.toRat (l.writeDigits d) := by
  unfold writeDigits
  split
  · exact l.isMagnitude_positional h
  · exact l.isMagnitude_exponent h

end Layout

/-! ## Doubles -/

/-- The double is a number, and no infinity. -/
def Decoded.isFinite : Decoded → Bool
  | zero _ => true
  | finite _ _ => true
  | _ => false

theorem Digits.toRat_zero : Digits.toRat ⟨['0'], 0⟩ = 0 := by
  unfold toRat
  rw [show ofDigits ['0'] = 0 from rfl, Nat.cast_zero, zero_mul]

/-- Every layout writes a finite double as a literal that is read as it. -/
theorem Layout.spelled_write (l : Layout) {x : Float} (h : (decode x).isFinite = true) :
    ∃ n : Number, n.Spelled (l.write x).toList ∧ n.RoundsTo x := by
  unfold write Number.RoundsTo
  cases hx : decode x with
  | undefined => rw [hx] at h; cases h
  | infinite negative => rw [hx] at h; cases h
  | zero negative =>
    obtain ⟨n, hspelled, hsign, hvalue⟩ :=
      (l.isMagnitude_positional Digits.proper_zero).spelled negative
    exact ⟨n, hspelled, hsign, hvalue.trans Digits.toRat_zero⟩
  | finite negative b =>
    have hb := legal_of_decode hx
    obtain ⟨n, hspelled, hsign, hvalue⟩ :=
      (l.isMagnitude_writeDigits (Digits.proper_shortest hb l.tie)).spelled negative
    refine ⟨n, hspelled, hsign, ?_⟩
    rw [hvalue]
    exact (Binary.isShortest_shortest hb l.tie).covers

end Calculator.Decimal

namespace Calculator.Json

open Decimal (decode decode_injective legal_of_decode)

/-- A literal is read as one double. -/
theorem Number.RoundsTo.unique {n : Number} {x y : Float} (hx : n.RoundsTo x)
    (hy : n.RoundsTo y) : x = y := by
  apply decode_injective
  unfold Number.RoundsTo at hx hy
  have hzero : ∀ {z : Float} {negative : Bool} {b : Decimal.Binary},
      decode z = .finite negative b → n.toRat = 0 → ¬ b.Covers n.toRat := by
    intro z negative b hz hn hcovers
    have hlower := hcovers.bounds.1
    rw [hn] at hlower
    exact absurd (Decimal.Binary.lower_pos (legal_of_decode hz).pos) hlower.not_gt
  split at hx
  next negative hdx =>
    split at hy
    next negative' hdy => rw [hdx, hdy, ← hx.1, ← hy.1]
    next negative' b' hdy => exact absurd hy.2 (hzero hdy hx.2)
    next => cases hy
  next negative b hdx =>
    split at hy
    next negative' hdy => exact absurd hx.2 (hzero hdx hy.2)
    next negative' b' hdy =>
      rw [hdx, hdy, ← hx.1, ← hy.1,
        Decimal.Binary.eq_of_covers (legal_of_decode hdx) (legal_of_decode hdy) hx.2 hy.2]
    next => cases hy
  next => cases hx

/-- What is no finite number is `null` in structured texts. -/
theorem amount_write_of_not_isFinite {x : Float} (h : (Decimal.decode x).isFinite = false) :
    amount.write x = "null" := by
  unfold Decimal.Layout.write
  cases hx : Decimal.decode x with
  | undefined => rfl
  | infinite negative => cases negative <;> rfl
  | zero negative => rw [hx] at h; cases h
  | finite negative b => rw [hx] at h; cases h

end Calculator.Json
