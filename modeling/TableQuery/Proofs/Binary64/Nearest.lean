import Mathlib.Algebra.Order.Ring.Int
import TableQuery.Binary64.Scaling

/-!
Rounding finds the nearest number. Exact values are counted in the units of the
smallest magnitude, so that a distance is a natural number, and a quotient is
compared after multiplying by its denominator. Of two numbers that are equally
near, the one with the even code is taken. A value that some number has exactly
is rounded to that number.
-/

namespace TableQuery.Binary64

/-! ### Magnitudes in steps

In a block of codes neighbouring magnitudes are one step apart, and a step is a
power of two. The magnitude after the last one of a block is a whole number of
steps, too, which is why rounding up across the border of a block is harmless.
-/

theorem unitsOfCode_of_lt {code : Nat} (h : code < 2 ^ 52) : unitsOfCode code = code := by
  rw [unitsOfCode, Nat.pow_eq, if_pos h]

theorem unitsOfCode_block (scale rest : Nat) (h : rest < 2 ^ 52) :
    unitsOfCode ((scale + 1) * 2 ^ 52 + rest) = (2 ^ 52 + rest) * 2 ^ scale := by
  have hdiv : ((scale + 1) * 2 ^ 52 + rest) / 2 ^ 52 = scale + 1 := by omega
  have hmod : ((scale + 1) * 2 ^ 52 + rest) % 2 ^ 52 = rest := by omega
  rw [unitsOfCode, Nat.pow_eq, Nat.pow_eq, if_neg (by omega), hdiv, hmod, Nat.add_sub_cancel]

theorem unitsOfCode_steps {scale steps : Nat} (h : steps ≤ 2 ^ 53)
    (hscale : scale = 0 ∨ 2 ^ 52 ≤ steps) :
    unitsOfCode (scale * 2 ^ 52 + steps) = steps * 2 ^ scale := by
  by_cases hlow : steps < 2 ^ 52
  · obtain rfl : scale = 0 := by omega
    rw [Nat.zero_mul, Nat.zero_add, unitsOfCode_of_lt hlow, Nat.pow_zero, Nat.mul_one]
  · by_cases htop : steps = 2 ^ 53
    · subst htop
      have hblock := unitsOfCode_block (scale + 1) 0 (by decide)
      have hcode : scale * 2 ^ 52 + 2 ^ 53 = (scale + 1 + 1) * 2 ^ 52 + 0 := by omega
      rw [hcode, hblock, Nat.pow_succ]
      omega
    · have hblock := unitsOfCode_block scale (steps - 2 ^ 52) (by omega)
      have hcode : scale * 2 ^ 52 + steps = (scale + 1) * 2 ^ 52 + (steps - 2 ^ 52) := by omega
      have hsteps : 2 ^ 52 + (steps - 2 ^ 52) = steps := by omega
      rw [hcode, hblock, hsteps]

theorem exists_steps (code : Nat) :
    ∃ scale steps, code = scale * 2 ^ 52 + steps ∧ steps < 2 ^ 53 ∧
      (scale = 0 ∨ 2 ^ 52 ≤ steps) := by
  refine ⟨code / 2 ^ 52 - 1, code - (code / 2 ^ 52 - 1) * 2 ^ 52, ?_, ?_, ?_⟩
  · omega
  · omega
  · omega

theorem unitsOfCode_lt_succ (code : Nat) : unitsOfCode code < unitsOfCode (code + 1) := by
  obtain ⟨scale, steps, rfl, hsteps, hscale⟩ := exists_steps code
  rw [Nat.add_assoc, unitsOfCode_steps (by omega) hscale,
    unitsOfCode_steps (by omega) (hscale.imp_right fun h => by omega)]
  exact Nat.mul_lt_mul_of_pos_right (Nat.lt_succ_self steps) (Nat.two_pow_pos scale)

theorem unitsOfCode_lt {a b : Nat} (h : a < b) : unitsOfCode a < unitsOfCode b := by
  induction h with
  | refl => exact unitsOfCode_lt_succ a
  | step _ ih => exact Nat.lt_trans ih (unitsOfCode_lt_succ _)

theorem unitsOfCode_injective {a b : Nat} (h : unitsOfCode a = unitsOfCode b) : a = b := by
  rcases Nat.lt_trichotomy a b with hlt | heq | hgt
  · have := unitsOfCode_lt hlt
    omega
  · exact heq
  · have := unitsOfCode_lt hgt
    omega

section Whole

variable {denominator : Nat}

theorem roundHalfEven_bounds (numerator denominator : Nat) :
    numerator / denominator ≤ roundHalfEven numerator denominator ∧
      roundHalfEven numerator denominator ≤ numerator / denominator + 1 := by
  simp only [roundHalfEven]
  split <;> omega

/-- Half a step is all that rounding changes, and a whole half only towards an
even number. -/
theorem roundHalfEven_half (numerator : Nat) (h : 0 < denominator) :
    2 * ((roundHalfEven numerator denominator * denominator : Nat) - (numerator : Int)).natAbs ≤
        denominator ∧
      (2 * ((roundHalfEven numerator denominator * denominator : Nat) -
          (numerator : Int)).natAbs = denominator →
        roundHalfEven numerator denominator % 2 = 0) := by
  have hdiv := Nat.div_add_mod numerator denominator
  have hmod := Nat.mod_lt numerator h
  rw [Nat.mul_comm] at hdiv
  simp only [roundHalfEven]
  split
  · rw [Nat.add_mul, Nat.one_mul]
    omega
  · omega

theorem roundHalfEven_nearest (numerator : Nat) (h : 0 < denominator) (other : Nat) :
    ((roundHalfEven numerator denominator * denominator : Nat) - (numerator : Int)).natAbs ≤
        ((other * denominator : Nat) - (numerator : Int)).natAbs ∧
      (((roundHalfEven numerator denominator * denominator : Nat) - (numerator : Int)).natAbs =
          ((other * denominator : Nat) - (numerator : Int)).natAbs →
        roundHalfEven numerator denominator = other ∨
          roundHalfEven numerator denominator % 2 = 0) := by
  obtain ⟨hhalf, htie⟩ := roundHalfEven_half numerator h
  -- Two different multiples are at least one whole step apart.
  rcases Nat.lt_trichotomy (roundHalfEven numerator denominator) other with hlt | heq | hgt
  · have hstep := Nat.mul_le_mul_right denominator (Nat.succ_le_of_lt hlt)
    rw [Nat.succ_mul] at hstep
    omega
  · rw [heq]
    omega
  · have hstep := Nat.mul_le_mul_right denominator (Nat.succ_le_of_lt hgt)
    rw [Nat.succ_mul] at hstep
    omega

end Whole

/-! ### Rounding to magnitudes -/

/-- How far a magnitude is from `numerator / denominator` units, in units divided by
the denominator. -/
def distance (code numerator denominator : Nat) : Nat :=
  ((unitsOfCode code * denominator : Nat) - (numerator : Int)).natAbs

section Magnitude

variable {denominator : Nat}

/-- The quotient is rounded to a whole number of steps that fits its block. -/
theorem exists_codeOfUnits_eq (numerator : Nat) (h : 0 < denominator) :
    ∃ scale, codeOfUnits numerator denominator =
        scale * 2 ^ 52 + roundHalfEven numerator (denominator * 2 ^ scale) ∧
      roundHalfEven numerator (denominator * 2 ^ scale) ≤ 2 ^ 53 ∧
      scale ≤ (numerator / denominator).log2 - 52 ∧
      (scale = 0 ∨ 2 ^ 52 * (denominator * 2 ^ scale) ≤ numerator ∧
        2 ^ 52 ≤ roundHalfEven numerator (denominator * 2 ^ scale)) := by
  refine ⟨(numerator / denominator).log2 - 52, ?_, ?_, Nat.le_refl _, ?_⟩
  · rfl
  · have hbounds := (roundHalfEven_bounds numerator
      (denominator * 2 ^ ((numerator / denominator).log2 - 52))).2
    rw [← Nat.div_div_eq_div_mul] at hbounds
    have hlt : numerator / denominator <
        2 ^ ((numerator / denominator).log2 - 52) * 2 ^ 53 := by
      rw [← Nat.pow_add]
      exact Nat.lt_of_lt_of_le Nat.lt_log2_self (Nat.pow_le_pow_right (by decide) (by omega))
    have hdiv := Nat.div_lt_of_lt_mul hlt
    omega
  · by_cases hzero : (numerator / denominator).log2 - 52 = 0
    · exact .inl hzero
    · refine .inr ?_
      have hne : numerator / denominator ≠ 0 := by
        intro hquotient
        rw [hquotient] at hzero
        exact hzero rfl
      have hle : 2 ^ 52 * 2 ^ ((numerator / denominator).log2 - 52) ≤ numerator / denominator := by
        rw [← Nat.pow_add, Nat.add_sub_cancel' (by omega)]
        exact Nat.log2_self_le hne
      constructor
      · rw [Nat.mul_comm denominator, ← Nat.mul_assoc]
        exact (Nat.le_div_iff_mul_le h).mp hle
      · refine Nat.le_trans ?_ (roundHalfEven_bounds _ _).1
        rw [← Nat.div_div_eq_div_mul]
        exact (Nat.le_div_iff_mul_le (Nat.two_pow_pos _)).mpr hle

/-- No magnitude is nearer, and one that is as near has the same code or leaves the
even one to the result. -/
theorem distance_codeOfUnits_le (numerator : Nat) (h : 0 < denominator) (code : Nat) :
    distance (codeOfUnits numerator denominator) numerator denominator ≤
        distance code numerator denominator ∧
      (distance (codeOfUnits numerator denominator) numerator denominator =
          distance code numerator denominator →
        codeOfUnits numerator denominator = code ∨ codeOfUnits numerator denominator % 2 = 0) := by
  obtain ⟨scale, hcode, htop, -, hscale⟩ := exists_codeOfUnits_eq numerator h
  have hunits : unitsOfCode (codeOfUnits numerator denominator) =
      roundHalfEven numerator (denominator * 2 ^ scale) * 2 ^ scale := by
    rw [hcode]
    exact unitsOfCode_steps htop (hscale.imp_right And.right)
  have hstep : 0 < denominator * 2 ^ scale := Nat.mul_pos h (Nat.two_pow_pos scale)
  have hfactor (steps : Nat) :
      steps * 2 ^ scale * denominator = steps * (denominator * 2 ^ scale) := by
    rw [Nat.mul_assoc, Nat.mul_comm (2 ^ scale)]
  simp only [distance, hunits, hfactor]
  obtain ⟨other, steps, hother, hsteps, hlow⟩ := exists_steps code
  have hunits' : unitsOfCode code = steps * 2 ^ other := by
    rw [hother]
    exact unitsOfCode_steps (by omega) hlow
  by_cases hle : scale ≤ other
  -- The other magnitude is a whole number of the same steps.
  · have hmultiple : unitsOfCode code = steps * 2 ^ (other - scale) * 2 ^ scale := by
      rw [hunits', Nat.mul_assoc, ← Nat.pow_add, Nat.sub_add_cancel hle]
    rw [hmultiple, hfactor]
    obtain ⟨hnear, htie⟩ := roundHalfEven_nearest numerator hstep
      (steps * 2 ^ (other - scale))
    refine ⟨hnear, fun heq => ?_⟩
    rcases htie heq with hsame | heven
    · refine .inl (unitsOfCode_injective ?_)
      rw [hunits, hmultiple, hsame]
    · refine .inr ?_
      omega
  -- It is finer, and so below all magnitudes with these steps.
  · obtain ⟨hlarge, -⟩ := hscale.resolve_left (by omega)
    have hbelow : unitsOfCode code < 2 ^ 52 * 2 ^ scale := by
      have hpow : 2 ^ other * 2 ≤ 2 ^ scale := by
        rw [← Nat.pow_succ]
        exact Nat.pow_le_pow_right (by decide) (by omega)
      have hlt := Nat.mul_lt_mul_of_pos_right hsteps (Nat.two_pow_pos other)
      omega
    have hless := Nat.mul_lt_mul_of_pos_right hbelow h
    rw [hfactor] at hless
    obtain ⟨hnear, -⟩ := roundHalfEven_nearest numerator hstep (2 ^ 52)
    omega

theorem codeOfUnits_unitsOfCode (code : Nat) : codeOfUnits (unitsOfCode code) 1 = code := by
  obtain ⟨hnear, -⟩ := distance_codeOfUnits_le (unitsOfCode code) Nat.one_pos code
  apply unitsOfCode_injective
  simp only [distance, Nat.mul_one] at hnear
  omega

end Magnitude

def hasEvenCode : Binary64 → Bool
  | nan => false
  | signed _ code => code.val % 2 = 0

/-- The number is finite, no other is nearer to the exact value, given in units, and
one that is as near leaves the even code to it. -/
def IsNearest (x : Binary64) (exact : Int) : Prop :=
  ∃ u, x.units? = some u ∧ ∀ (y : Binary64) (v : Int), y.units? = some v →
    (u - exact).natAbs ≤ (v - exact).natAbs ∧
      ((u - exact).natAbs = (v - exact).natAbs → u = v ∨ x.hasEvenCode = true)

theorem units?_signed {negative : Bool} {code : Fin (infinityCode + 1)} {u : Int} :
    (signed negative code).units? = some u ↔
      code.val < infinityCode ∧
        u = if negative then -(unitsOfCode code : Int) else unitsOfCode code := by
  rw [units?]
  split
  · rename_i h
    simp [h, eq_comm]
  · rename_i h
    simp [h]

theorem isFinite_signed (negative : Bool) {code : Fin (infinityCode + 1)} :
    (signed negative code).isFinite = true ↔ code.val < infinityCode := by
  rw [isFinite, units?]
  split
  · rename_i h
    simp [h]
  · rename_i h
    simp [h]

theorem unitsPerOne_pos : 0 < unitsPerOne := by
  unfold unitsPerOne
  generalize 1074 = exponent
  exact Nat.two_pow_pos exponent

theorem log2_mul_unitsPerOne_lt {n bits : Nat} (h : n < 2 ^ bits) (hpos : 0 < n) :
    (n * unitsPerOne).log2 < bits + 1074 := by
  have hne : n * unitsPerOne ≠ 0 := Nat.ne_of_gt (Nat.mul_pos hpos unitsPerOne_pos)
  unfold unitsPerOne at hne ⊢
  generalize 1074 = exponent at *
  rw [Nat.log2_lt hne, Nat.pow_add]
  exact Nat.mul_lt_mul_of_pos_right h (Nat.two_pow_pos exponent)

theorem codeOfNat_lt_infinityCode {n : Nat} (h : n < 2 ^ 64) : codeOfNat n < infinityCode := by
  obtain ⟨scale, hcode, htop, hscale, -⟩ := exists_codeOfUnits_eq (n * unitsPerOne) Nat.one_pos
  have hlog : (n * unitsPerOne).log2 < 64 + 1074 := by
    rcases Nat.eq_zero_or_pos n with rfl | hpos
    · rw [Nat.zero_mul]
      decide
    · exact log2_mul_unitsPerOne_lt h hpos
  rw [Nat.div_one] at hscale
  rw [codeOfNat, hcode, infinityCode]
  omega

theorem ofInt_eq {n : Int} (h : n.natAbs < 2 ^ 64) :
    ofInt n = signed (n < 0) ⟨codeOfNat n.natAbs,
      Nat.lt_succ_of_lt (codeOfNat_lt_infinityCode h)⟩ := by
  have hmin := Nat.min_eq_right (Nat.le_of_lt (codeOfNat_lt_infinityCode h))
  rw [codeOfNat] at hmin
  simp only [ofInt, ofQuotient, codeOfNat, hmin]

theorem natAbs_sub_same_sign (negative : Bool) (a b : Nat) :
    ((if negative then -(a : Int) else a) - (if negative then -(b : Int) else b)).natAbs =
      ((a : Int) - b).natAbs := by
  cases negative with
  | false => rfl
  | true =>
      rw [if_pos rfl, if_pos rfl]
      omega

theorem natAbs_sub_other_sign (negative : Bool) (a b : Nat) :
    ((if !negative then -(a : Int) else a) - (if negative then -(b : Int) else b)).natAbs =
      a + b := by
  cases negative with
  | false =>
      rw [if_pos (by rfl), if_neg (by decide)]
      omega
  | true =>
      rw [if_neg (by decide), if_pos rfl]
      omega

/-- The sign is set apart: a number of the other sign is no nearer than zero is. -/
theorem isNearest_signed {negative : Bool} {code : Fin (infinityCode + 1)} {magnitude : Nat}
    (hfinite : code.val < infinityCode)
    (h : ∀ other, distance code magnitude 1 ≤ distance other magnitude 1 ∧
      (distance code magnitude 1 = distance other magnitude 1 →
        code.val = other ∨ code.val % 2 = 0)) :
    IsNearest (signed negative code) (if negative then -(magnitude : Int) else magnitude) := by
  refine ⟨_, units?_signed.mpr ⟨hfinite, rfl⟩, ?_⟩
  intro y v hv
  cases y with
  | nan => simp [units?] at hv
  | signed sign other =>
      obtain ⟨-, rfl⟩ := units?_signed.mp hv
      simp only [distance, Nat.mul_one] at h
      simp only [hasEvenCode, decide_eq_true_eq, natAbs_sub_same_sign]
      by_cases hsign : sign = negative
      · rw [hsign, natAbs_sub_same_sign]
        obtain ⟨hle, htie⟩ := h other
        refine ⟨hle, fun heq => ?_⟩
        rcases htie heq with hsame | heven
        · exact .inl (by rw [hsame])
        · exact .inr heven
      · obtain rfl : sign = !negative := Bool.eq_not.mpr hsign
        rw [natAbs_sub_other_sign]
        obtain ⟨hle, htie⟩ := h 0
        have hzero : unitsOfCode 0 = 0 := unitsOfCode_of_lt (by decide)
        rw [hzero] at hle htie
        refine ⟨by omega, fun heq => ?_⟩
        rcases htie (by omega) with hsame | heven
        · exact .inr (by omega)
        · exact .inr heven

theorem isNearest_ofInt {n : Int} (h : n.natAbs < 2 ^ 64) :
    IsNearest (ofInt n) (n * unitsPerOne) := by
  have hexact : n * (unitsPerOne : Int) =
      if decide (n < 0) then -((n.natAbs * unitsPerOne : Nat) : Int)
      else (n.natAbs * unitsPerOne : Nat) := by
    generalize unitsPerOne = one
    rw [Int.natCast_mul]
    by_cases hneg : n < 0
    · rw [if_pos (by simpa using hneg), ← Int.neg_mul,
        Int.ofNat_natAbs_of_nonpos (Int.le_of_lt hneg), Int.neg_neg]
    · rw [if_neg (by simpa using hneg), Int.natAbs_of_nonneg (Int.not_lt.mp hneg)]
  have hnear := distance_codeOfUnits_le (n.natAbs * unitsPerOne) Nat.one_pos
  rw [← codeOfNat] at hnear
  rw [ofInt_eq h, hexact]
  exact isNearest_signed (codeOfNat_lt_infinityCode h) hnear

theorem toInt?_eq_some_iff {x : Binary64} {n : Int} :
    x.toInt? = some n ↔ x.units? = some (n * unitsPerOne) := by
  have hone := unitsPerOne_pos
  rw [toInt?, Option.bind_eq_some_iff]
  generalize unitsPerOne = one at hone
  constructor
  · rintro ⟨units, hunits, h⟩
    obtain ⟨hmod, h⟩ := Option.ite_none_right_eq_some.mp h
    obtain rfl := Option.some.inj h
    rw [hunits, Int.ediv_mul_cancel_of_emod_eq_zero hmod]
  · intro h
    refine ⟨_, h, ?_⟩
    rw [if_pos (Int.mul_emod_left n one), Int.mul_ediv_cancel n (by omega)]

theorem toInt?_of_code_zero (negative : Bool) {code : Fin (infinityCode + 1)}
    (h : code.val = 0) : (signed negative code).toInt? = some 0 := by
  have hunits : (signed negative code).units? = some 0 := by
    rw [units?_signed, h, unitsOfCode_of_lt (by decide)]
    refine ⟨by decide, ?_⟩
    cases negative <;> rfl
  rwa [toInt?_eq_some_iff, Int.zero_mul]

/-- Negative zero as the other zero; every other number as it is. -/
def mergeZeros : Binary64 → Binary64
  | nan => nan
  | signed negative code => if code.val = 0 then zero else signed negative code

section Whole

variable {negative : Bool} {code : Fin (infinityCode + 1)} {n : Int}

theorem mul_unitsPerOne_of_toInt? (h : (signed negative code).toInt? = some n) :
    code.val < infinityCode ∧
      n * unitsPerOne = if negative then -(unitsOfCode code : Int) else unitsOfCode code :=
  units?_signed.mp (toInt?_eq_some_iff.mp h)

theorem natAbs_mul_of_toInt? (h : (signed negative code).toInt? = some n) :
    n.natAbs * unitsPerOne = unitsOfCode code := by
  have habs := congrArg Int.natAbs (mul_unitsPerOne_of_toInt? h).2
  rw [Int.natAbs_mul, Int.natAbs_natCast] at habs
  rw [habs]
  cases negative with
  | false => rfl
  | true => simp

theorem neg_iff_of_toInt? (h : (signed negative code).toInt? = some n) :
    n < 0 ↔ negative = true ∧ code.val ≠ 0 := by
  have hunits := (mul_unitsPerOne_of_toInt? h).2
  have hone : (0 : Int) < unitsPerOne := Int.natCast_pos.mpr unitsPerOne_pos
  have hzero : unitsOfCode 0 = 0 := unitsOfCode_of_lt (by decide)
  generalize (unitsPerOne : Int) = one at *
  constructor
  · intro hn
    have hlt := Int.mul_neg_of_neg_of_pos hn hone
    cases negative with
    | false =>
        rw [if_neg (by decide)] at hunits
        omega
    | true =>
        refine ⟨rfl, fun hcode => ?_⟩
        rw [if_pos rfl, hcode, hzero] at hunits
        omega
  · rintro ⟨rfl, hcode⟩
    have hpos := unitsOfCode_lt (Nat.pos_of_ne_zero hcode)
    rw [if_pos rfl] at hunits
    exact Int.neg_of_mul_neg_left (by omega) hone

theorem ofInt_of_toInt? {x : Binary64} (h : x.toInt? = some n) : ofInt n = x.mergeZeros := by
  cases x with
  | nan =>
      have hnone : nan.toInt? = none := rfl
      rw [hnone] at h
      simp at h
  | signed negative code =>
      have hfinite := (mul_unitsPerOne_of_toInt? h).1
      have hcode : codeOfUnits (n.natAbs * unitsPerOne) 1 = code.val := by
        rw [natAbs_mul_of_toInt? h, codeOfUnits_unitsOfCode]
      have hmin : min infinityCode code.val = code.val := Nat.min_eq_right (Nat.le_of_lt hfinite)
      have hsame : ofInt n = signed (n < 0) code := by
        simp only [ofInt, ofQuotient, hcode, hmin]
      have hsign := neg_iff_of_toInt? h
      rw [hsame, mergeZeros]
      by_cases hzero : code.val = 0
      · have hn : ¬n < 0 := fun hn => (hsign.mp hn).2 hzero
        rw [if_pos hzero, decide_eq_false hn, zero]
        exact congrArg _ (Fin.ext hzero)
      · have hn : decide (n < 0) = negative := by
          rw [Bool.eq_iff_iff, decide_eq_true_eq, hsign, and_iff_left hzero]
        rw [if_neg hzero, hn]

end Whole

end TableQuery.Binary64
