import TableQuery.Binary64.Scaling
import TableQuery.Proofs.Binary64.Shortest

/-!
Scaling in floating point. Each of its roundings keeps the order of exact values, so
the result for a coefficient is bounded by the result for a greater one. That is
enough to see that the shortest decimal of a finite number, although it is rounded up
to three times when it is scaled, never becomes infinite. As long as the coefficient
and the power of ten are both exact, only the last rounding is left, and scaling then
finds the nearest number.
-/

namespace TableQuery.Binary64

theorem codeOfUnits_mono {numerator numerator' denominator : Nat} (h : 0 < denominator)
    (hle : numerator ≤ numerator') :
    codeOfUnits numerator denominator ≤ codeOfUnits numerator' denominator := by
  refine Nat.le_of_not_lt fun hlt => ?_
  obtain ⟨hnear, -⟩ := distance_codeOfUnits_le numerator h (codeOfUnits numerator' denominator)
  obtain ⟨hnear', -⟩ := distance_codeOfUnits_le numerator' h (codeOfUnits numerator denominator)
  have hless := Nat.mul_lt_mul_of_pos_right (unitsOfCode_lt hlt) h
  simp only [distance] at hnear hnear'
  -- Both values would have to lie halfway between the two magnitudes.
  have hsame : numerator = numerator' := by omega
  rw [hsame] at hlt
  exact Nat.lt_irrefl _ hlt

theorem codeOfNat_mono {m n : Nat} (h : m ≤ n) : codeOfNat m ≤ codeOfNat n :=
  codeOfUnits_mono Nat.one_pos (Nat.mul_le_mul_right _ h)

theorem codeOfPower_mono {m n : Nat} (h : m ≤ n) : codeOfPower m ≤ codeOfPower n :=
  codeOfNat_mono (Nat.pow_le_pow_right (by decide) h)

theorem mulCode_mono {a a' b b' : Nat} (ha : a ≤ a') (hb : b ≤ b') :
    mulCode a b ≤ mulCode a' b' :=
  codeOfUnits_mono unitsPerOne_pos (Nat.mul_le_mul (unitsOfCode_le ha) (unitsOfCode_le hb))

theorem divCode_le {b : Nat} (h : unitsPerOne ≤ unitsOfCode b) (a : Nat) : divCode a b ≤ a := by
  refine Nat.le_of_not_lt fun hlt => ?_
  have hpos := Nat.lt_of_lt_of_le unitsPerOne_pos h
  obtain ⟨hnear, -⟩ := distance_codeOfUnits_le (unitsOfCode a * unitsPerOne) hpos a
  rw [← divCode] at hnear
  have hless := Nat.mul_lt_mul_of_pos_right (unitsOfCode_lt hlt) hpos
  have hle := Nat.mul_le_mul_left (unitsOfCode a) h
  simp only [distance] at hnear
  omega

theorem roundHalfEven_mul_of_dvd {numerator denominator : Nat} (h : 0 < denominator)
    (hdvd : denominator ∣ numerator) :
    roundHalfEven numerator denominator * denominator = numerator := by
  have hmod := Nat.mod_eq_zero_of_dvd hdvd
  simp only [roundHalfEven, hmod]
  rw [if_neg (by omega), Nat.div_mul_cancel hdvd]

theorem unitsOfCode_codeOfNat {m : Nat} (h : m < 2 ^ 53) (zeros : Nat) :
    unitsOfCode (codeOfNat (m * 2 ^ zeros)) = m * 2 ^ zeros * unitsPerOne := by
  rcases Nat.eq_zero_or_pos m with rfl | hpos
  · rw [Nat.zero_mul, codeOfNat, Nat.zero_mul, codeOfUnits_eq_zero (by decide),
      unitsOfCode_of_lt (by decide)]
  · have hzeros := Nat.two_pow_pos zeros
    obtain ⟨scale, hcode, htop, hle, hscale⟩ :=
      exists_codeOfUnits_eq (m * 2 ^ zeros * unitsPerOne) Nat.one_pos
    have hbits : m * 2 ^ zeros < 2 ^ (53 + zeros) := by
      rw [Nat.pow_add]
      exact Nat.mul_lt_mul_of_pos_right h hzeros
    have hlog := log2_mul_unitsPerOne_lt hbits (Nat.mul_pos hpos hzeros)
    rw [Nat.div_one] at hle
    -- The zeros fill the places that the magnitude has no room for, so nothing is rounded.
    have hdvd : 1 * 2 ^ scale ∣ m * 2 ^ zeros * unitsPerOne := by
      rw [Nat.one_mul, unitsPerOne_eq, Nat.mul_assoc, ← Nat.pow_add]
      exact Nat.dvd_mul_left_of_dvd (Nat.pow_dvd_pow 2 (by omega)) m
    have hround := roundHalfEven_mul_of_dvd (Nat.mul_pos Nat.one_pos (Nat.two_pow_pos scale)) hdvd
    rw [Nat.one_mul] at hround
    rw [codeOfNat, hcode, unitsOfCode_steps htop (hscale.imp_right And.right), Nat.one_mul, hround]

theorem unitsOfCode_codeOfPower {exponent : Nat} (h : exponent ≤ 22) :
    unitsOfCode (codeOfPower exponent) = 10 ^ exponent * unitsPerOne := by
  have hfive : 5 ^ exponent < 2 ^ 53 :=
    Nat.lt_of_le_of_lt (Nat.pow_le_pow_right (by decide) h) (by decide)
  have hten : 10 ^ exponent = 5 ^ exponent * 2 ^ exponent := Nat.mul_pow 5 2 exponent
  rw [codeOfPower, Nat.pow_eq, hten]
  exact unitsOfCode_codeOfNat hfive exponent

theorem codeOfUnits_mul_mul (numerator denominator : Nat) {factor : Nat} (h : 0 < factor) :
    codeOfUnits (numerator * factor) (denominator * factor) =
      codeOfUnits numerator denominator := by
  have hround (d : Nat) :
      roundHalfEven (numerator * factor) (d * factor) = roundHalfEven numerator d := by
    have hrest : 2 * (numerator % d * factor) = 2 * (numerator % d) * factor :=
      (Nat.mul_assoc ..).symm
    simp only [roundHalfEven, Nat.mul_div_mul_right _ _ h, Nat.mul_mod_mul_right, hrest,
      Nat.mul_lt_mul_right h, Nat.mul_right_cancel_iff h]
  rw [codeOfUnits, codeOfUnits, Nat.mul_div_mul_right _ _ h, Nat.mul_right_comm, hround]

section Exact

variable {coefficient exponent : Nat}

theorem unitsOfCode_coefficient (h : coefficient < 2 ^ 53) :
    unitsOfCode (codeOfNat coefficient) = coefficient * unitsPerOne := by
  simpa using unitsOfCode_codeOfNat h 0

theorem eq_zero_of_codeOfNat_eq_zero (h : coefficient < 2 ^ 53)
    (hzero : codeOfNat coefficient = 0) : coefficient = 0 := by
  have hunits := unitsOfCode_coefficient h
  rw [hzero, unitsOfCode_of_lt (by decide)] at hunits
  exact (Nat.mul_eq_zero.mp hunits.symm).resolve_right unitsPerOne_pos.ne'

theorem scaleUp_codeOfNat (h : coefficient < 2 ^ 53) (hexponent : exponent ≤ 22) :
    scaleUp (codeOfNat coefficient) exponent = codeOfNat (coefficient * 10 ^ exponent) := by
  rw [scaleUp]
  split
  · rename_i hnothing
    rcases hnothing with hzero | rfl
    · rw [eq_zero_of_codeOfNat_eq_zero h hzero, Nat.zero_mul]
    · rw [Nat.pow_zero, Nat.mul_one]
  · have hfactor : coefficient * unitsPerOne * (10 ^ exponent * unitsPerOne) =
        coefficient * 10 ^ exponent * unitsPerOne * unitsPerOne := by
      generalize unitsPerOne = one
      ring
    have hquotient := codeOfUnits_mul_mul (coefficient * 10 ^ exponent * unitsPerOne) 1
      unitsPerOne_pos
    rw [Nat.one_mul] at hquotient
    rw [if_neg (by rw [maxPower]; omega), mulCode, unitsOfCode_coefficient h,
      unitsOfCode_codeOfPower hexponent, hfactor, hquotient, codeOfNat]

theorem scaleDown_codeOfNat (h : coefficient < 2 ^ 53) (hexponent : exponent ≤ 22) :
    scaleDown (codeOfNat coefficient) exponent =
      codeOfUnits (coefficient * unitsPerOne) (10 ^ exponent) := by
  rw [scaleDown]
  split
  · rename_i hzero
    rw [eq_zero_of_codeOfNat_eq_zero h hzero, Nat.zero_mul,
      codeOfUnits_eq_zero (Nat.pow_pos (by decide))]
  · rw [if_neg (by rw [maxPower]; omega), divCode, unitsOfCode_coefficient h,
      unitsOfCode_codeOfPower hexponent, codeOfUnits_mul_mul _ _ unitsPerOne_pos]

/-- With an exact coefficient and an exact power there is one rounding, to the nearest
number. -/
theorem ofScaled_eq_ofDecimal (negative : Bool) {exponent : Int} (h : coefficient < 2 ^ 53)
    (hexponent : exponent.natAbs ≤ 22) :
    ofScaled negative coefficient exponent = ofDecimal negative coefficient exponent := by
  rw [ofDecimal_eq_ofQuotient]
  refine congrArg (signed negative) (Fin.ext (congrArg (min infinityCode) ?_))
  by_cases hle : 0 ≤ exponent
  · have hden : (-exponent).toNat = 0 := by omega
    rw [if_pos hle, scaleUp_codeOfNat h (by omega), codeOfNat, hden, Nat.pow_zero]
  · have hnum : exponent.toNat = 0 := by omega
    rw [if_neg hle, scaleDown_codeOfNat h (by omega), hnum, Nat.pow_zero, Nat.mul_one]

theorem ofScaled_zero (negative : Bool) (coefficient : Nat) :
    ofScaled negative coefficient 0 = ofDecimal negative coefficient 0 := by
  rw [ofDecimal_eq_ofQuotient]
  refine congrArg (signed negative) (Fin.ext (congrArg (min infinityCode) ?_))
  rw [if_pos (Int.le_refl 0), Int.toNat_zero, scaleUp_zero, codeOfNat, Int.neg_zero,
    Int.toNat_zero, Nat.pow_zero, Nat.mul_one]

end Exact

/-! ### The shortest decimals stay finite -/

theorem unitsPerOne_le_unitsOfCode_codeOfPower (exponent : Nat) :
    unitsPerOne ≤ unitsOfCode (codeOfPower exponent) := by
  calc
    unitsPerOne ≤ 10 ^ 0 * unitsPerOne := Nat.le_mul_of_pos_left _ (by decide)
    _ = unitsOfCode (codeOfPower 0) := (unitsOfCode_codeOfPower (Nat.zero_le 22)).symm
    _ ≤ unitsOfCode (codeOfPower exponent) :=
      unitsOfCode_le (codeOfPower_mono (Nat.zero_le exponent))

theorem scaleDown_le (code exponent : Nat) : scaleDown code exponent ≤ code := by
  induction code, exponent using scaleDown.induct with
  | case1 exponent =>
      rw [scaleDown, if_pos rfl]
  | case2 code exponent hcode hfar ih =>
      rw [scaleDown, if_neg hcode, if_pos hfar]
      exact ih.trans (divCode_le (unitsPerOne_le_unitsOfCode_codeOfPower _) code)
  | case3 code exponent hcode hnear =>
      rw [scaleDown, if_neg hcode, if_neg hnear]
      exact divCode_le (unitsPerOne_le_unitsOfCode_codeOfPower _) code

section Finite

variable {coefficient : Nat} {exponent : Int}

theorem isFinite_ofScaled_of_nonpos (negative : Bool) (h : coefficient < 2 ^ 64)
    (hexponent : exponent ≤ 0) : (ofScaled negative coefficient exponent).isFinite = true := by
  have hfinite := codeOfNat_lt_infinityCode h
  refine (isFinite_signed negative).mpr (Nat.lt_of_le_of_lt (Nat.min_le_right _ _) ?_)
  split
  · have hzero : exponent.toNat = 0 := by omega
    rwa [hzero, scaleUp_zero]
  · exact (scaleDown_le _ _).trans_lt hfinite

/-- The end of the interval of the greatest finite magnitude but one. -/
def lastEnd : Nat := (2 ^ 54 - 3) * 2 ^ 970

theorem interval_upper_le {code : Nat} (h : code + 1 < infinityCode) :
    (interval code).upper ≤ lastEnd * (2 * unitsPerOne) := by
  have hbefore := unitsOfCode_le (show code ≤ infinityCode - 2 by omega)
  have hlast := unitsOfCode_le (show code + 1 ≤ infinityCode - 1 by omega)
  have hunits := unitsOfCode_block 2045 (2 ^ 52 - 2) (by decide)
  have hone : (2 : Nat) ^ 2044 = 2 ^ 970 * unitsPerOne := by
    rw [unitsPerOne_eq, ← Nat.pow_add]
  have hhalf : (2 : Nat) ^ 2045 = 2 * 2 ^ 2044 := by rw [Nat.mul_comm, ← Nat.pow_succ]
  rw [show (2045 + 1) * 2 ^ 52 + (2 ^ 52 - 2) = infinityCode - 2 from rfl, hhalf, hone] at hunits
  rw [unitsOfCode_infinityCode.1, hone] at hlast
  rw [hunits] at hbefore
  clear hone hhalf
  change unitsOfCode code + unitsOfCode (code + 1) ≤ _
  rw [lastEnd, Nat.mul_assoc, Nat.mul_left_comm (2 ^ 970)]
  generalize 2 ^ 970 * unitsPerOne = half at *
  omega

theorem mulCode_lt_infinityCode {exponent : Nat} (hcoefficient : coefficient ≤ 10 ^ 17)
    (h : coefficient * 10 ^ exponent ≤ lastEnd) (hexponent : exponent ≤ maxPower) :
    mulCode (codeOfNat coefficient) (codeOfPower exponent) < infinityCode := by
  -- Up to 291 places no coefficient of seventeen digits is too great. From there on the bound
  -- on the product leaves a greatest one to every power.
  have hsmall : mulCode (codeOfNat (10 ^ 17)) (codeOfPower 291) < infinityCode := by
    decide +kernel
  have hlarge : ∀ exponent < 309, 292 ≤ exponent →
      mulCode (codeOfNat (lastEnd / 10 ^ exponent)) (codeOfPower exponent) < infinityCode := by
    decide +kernel
  by_cases hbelow : exponent ≤ 291
  · exact (mulCode_mono (codeOfNat_mono hcoefficient) (codeOfPower_mono hbelow)).trans_lt hsmall
  · have hle := (Nat.le_div_iff_mul_le (Nat.pow_pos (by decide))).mpr h
    refine (mulCode_mono (codeOfNat_mono hle) (Nat.le_refl _)).trans_lt ?_
    exact hlarge exponent (Nat.lt_succ_of_le hexponent) (by omega)

theorem lastEnd_lt : lastEnd < 10 ^ (maxPower + 1) := by
  decide +kernel

/-- A decimal away from where infinity begins is scaled to a finite number. -/
theorem isFinite_ofScaled_of_mul_le (negative : Bool) (hzero : coefficient ≠ 0)
    (hcoefficient : coefficient ≤ 10 ^ 17) (h : coefficient * 10 ^ exponent.toNat ≤ lastEnd) :
    (ofScaled negative coefficient exponent).isFinite = true := by
  have hdigits : coefficient < 2 ^ 64 := Nat.lt_of_le_of_lt hcoefficient (by decide)
  by_cases hexponent : exponent ≤ 0
  · exact isFinite_ofScaled_of_nonpos negative hdigits hexponent
  · have hpower : exponent.toNat < maxPower + 1 := by
      refine (pow_lt_pow_iff_right₀ (show 1 < 10 by decide)).mp ?_
      exact (Nat.le_mul_of_pos_left _ (Nat.pos_of_ne_zero hzero)).trans_lt (h.trans_lt lastEnd_lt)
    refine (isFinite_signed negative).mpr (Nat.lt_of_le_of_lt (Nat.min_le_right _ _) ?_)
    rw [if_pos (by omega), scaleUp]
    split
    · exact codeOfNat_lt_infinityCode hdigits
    · rw [if_neg (by omega)]
      exact mulCode_lt_infinityCode hcoefficient h (Nat.le_of_lt_succ hpower)

variable {code : Nat}

/-- The shortest decimal of a magnitude before the greatest finite one stays away from
where infinity begins. -/
theorem shortest_mul_le (tie : Tie) (hcode : code ≠ 0) (hlast : code + 1 < infinityCode)
    (hexponent : 0 ≤ (shortest tie code).exponent) :
    (shortest tie code).coefficient * 10 ^ (shortest tie code).exponent.toNat ≤ lastEnd := by
  have hupper := (contains_interval_iff.mp (contains_shortest tie hcode)).1.2
  have hscale : Interval.scale (shortest tie code).exponent = 1 := by
    have hzero : (-(shortest tie code).exponent).toNat = 0 := by omega
    rw [Interval.scale, hzero]
  have hle := interval_upper_le hlast
  have hone := unitsPerOne_pos
  rw [hscale, Nat.mul_one, Interval.step_eq] at hupper
  generalize unitsPerOne = one at *
  refine Nat.le_of_mul_le_mul_right ?_ (Nat.mul_pos Nat.two_pos hone)
  calc
    (shortest tie code).coefficient * 10 ^ (shortest tie code).exponent.toNat * (2 * one)
        = (shortest tie code).coefficient *
          (2 * (10 ^ (shortest tie code).exponent.toNat * one)) := by ring
    _ ≤ (interval code).upper := hupper
    _ ≤ lastEnd * (2 * one) := hle

theorem shortest_greatest (tie : Tie) :
    shortest tie (infinityCode - 1) = ⟨17976931348623157, 292⟩ := by
  cases tie with
  | toEven => decide +kernel
  | up => decide +kernel

/-- The shortest decimal of a finite number is scaled to a finite number. -/
theorem isFinite_ofScaled_shortest (tie : Tie) (negative : Bool) (h : code < infinityCode) :
    (ofScaled negative (shortest tie code).coefficient (shortest tie code).exponent).isFinite =
      true := by
  by_cases hcode : code = 0
  · rw [shortest, if_pos hcode]
    exact isFinite_ofScaled_of_nonpos negative (by decide) (Int.le_refl 0)
  by_cases hlast : code + 1 < infinityCode
  · have hdigits := shortest_coefficient_le tie code
    by_cases hexponent : 0 ≤ (shortest tie code).exponent
    · exact isFinite_ofScaled_of_mul_le negative (shortest_coefficient_ne_zero tie hcode) hdigits
        (shortest_mul_le tie hcode hlast hexponent)
    · exact isFinite_ofScaled_of_nonpos negative (hdigits.trans_lt (by decide)) (by omega)
  · obtain rfl : code = infinityCode - 1 := by omega
    rw [shortest_greatest]
    cases negative with
    | false => decide +kernel
    | true => decide +kernel

end Finite

end TableQuery.Binary64
