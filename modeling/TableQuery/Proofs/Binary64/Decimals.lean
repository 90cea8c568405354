import Mathlib.Algebra.Order.Field.Power
import Mathlib.Algebra.Order.Field.Rat
import Mathlib.Tactic.Linarith
import Mathlib.Tactic.Positivity
import Mathlib.Tactic.Ring
import TableQuery.Proofs.Binary64.Nearest

/-!
Decimals are rounded to the nearest number. A decimal has an exact value, a rational
number, and so has every finite number; of all finite numbers the result is one that is
nearest to the decimal, and of two it is the one with the even code. Decimals that are
closer to the next power of two than to the greatest finite number become infinite.
This and the sign leave only one result for every decimal.
-/

namespace TableQuery.Binary64

def withSign (negative : Bool) (magnitude : ℚ) : ℚ :=
  if negative then -magnitude else magnitude

/-- The magnitude with a code, for codes of finite magnitudes. -/
def magnitude (code : Nat) : ℚ := unitsOfCode code / unitsPerOne

/-- The exact value of a finite number. -/
def value? (x : Binary64) : Option ℚ :=
  x.units?.map fun (u : Int) => (u : ℚ) / unitsPerOne

def sign? : Binary64 → Option Bool
  | nan => none
  | signed negative _ => some negative

/-- Half a step beyond the greatest finite magnitude. -/
def overflow : ℚ := 2 ^ 1024 - 2 ^ 970

/-- The number is nearest to the exact value among the finite ones, with the even code
if another is as near. Values that are too large for that go to infinity. -/
def RoundsTo (exact : ℚ) (x : Binary64) : Prop :=
  if |exact| < overflow then
    ∃ v, x.value? = some v ∧ ∀ (y : Binary64) (w : ℚ), y.value? = some w →
      |v - exact| ≤ |w - exact| ∧ (|v - exact| = |w - exact| → v = w ∨ x.hasEvenCode = true)
  else
    x = signed (exact < 0) (Fin.last infinityCode)

section Signs

variable {negative : Bool} {a b : ℚ}

theorem abs_withSign (ha : 0 ≤ a) : |withSign negative a| = a := by
  cases negative with
  | false => exact abs_of_nonneg ha
  | true => exact (abs_neg a).trans (abs_of_nonneg ha)

theorem abs_withSign_sub (negative : Bool) (a b : ℚ) :
    |withSign negative a - withSign negative b| = |a - b| := by
  cases negative with
  | false => rfl
  | true =>
      simp only [withSign, if_pos]
      rw [neg_sub_neg, abs_sub_comm]

/-- With different signs it is the magnitudes that add up. -/
theorem abs_withSign_not_sub (negative : Bool) (ha : 0 ≤ a) (hb : 0 ≤ b) :
    |withSign (!negative) a - withSign negative b| = a + b := by
  cases negative with
  | false =>
      show |-a - b| = a + b
      rw [abs_of_nonpos (by linarith)]
      ring
  | true =>
      show |a - -b| = a + b
      rw [abs_of_nonneg (by linarith)]
      ring

theorem withSign_neg_iff (ha : 0 < a) : withSign negative a < 0 ↔ negative = true := by
  cases negative with
  | false => simp [withSign, ha.le]
  | true => simp [withSign, ha]

end Signs

theorem unitsPerOne_eq : unitsPerOne = 2 ^ 1074 := by
  unfold unitsPerOne
  generalize 1074 = exponent
  exact Nat.pow_eq

theorem cast_unitsPerOne_pos : (0 : ℚ) < unitsPerOne := Nat.cast_pos.mpr unitsPerOne_pos

theorem magnitude_nonneg (code : Nat) : 0 ≤ magnitude code :=
  div_nonneg (Nat.cast_nonneg _) cast_unitsPerOne_pos.le

theorem magnitude_lt {a b : Nat} (h : a < b) : magnitude a < magnitude b :=
  div_lt_div_of_pos_right (Nat.cast_lt.mpr (unitsOfCode_lt h)) cast_unitsPerOne_pos

theorem value?_nan : nan.value? = none := rfl

theorem value?_signed {negative : Bool} {code : Fin (infinityCode + 1)} {v : ℚ} :
    (signed negative code).value? = some v ↔
      code.val < infinityCode ∧ v = withSign negative (magnitude code) := by
  have hsign : ((if negative then -(unitsOfCode code : Int) else unitsOfCode code : Int) : ℚ) /
      unitsPerOne = withSign negative (magnitude code) := by
    cases negative with
    | false => rw [if_neg (by decide), Int.cast_natCast, withSign, magnitude, if_neg (by decide)]
    | true =>
        rw [if_pos rfl, Int.cast_neg, Int.cast_natCast, withSign, magnitude, if_pos rfl, neg_div]
  rw [value?, Option.map_eq_some_iff]
  simp only [units?_signed]
  constructor
  · rintro ⟨u, ⟨hfinite, rfl⟩, rfl⟩
    exact ⟨hfinite, hsign⟩
  · rintro ⟨hfinite, rfl⟩
    exact ⟨_, ⟨hfinite, rfl⟩, hsign⟩

theorem unitsOfCode_infinityCode :
    unitsOfCode (infinityCode - 1) = (2 ^ 54 - 2) * 2 ^ 2044 ∧
      unitsOfCode infinityCode = 2 ^ 54 * 2 ^ 2044 := by
  have hlast := unitsOfCode_block 2045 (2 ^ 52 - 1) (by decide)
  have hnext := unitsOfCode_block 2046 0 (by decide)
  have hstep : (2 : Nat) ^ 2045 = 2 * 2 ^ 2044 := by rw [Nat.mul_comm, ← Nat.pow_succ]
  have hsteps : (2 : Nat) ^ 2046 = 2 * 2 ^ 2045 := by rw [Nat.mul_comm, ← Nat.pow_succ]
  rw [hsteps] at hnext
  rw [hstep] at hlast hnext
  generalize 2 ^ 2044 = half at *
  constructor
  · rw [show infinityCode - 1 = (2045 + 1) * 2 ^ 52 + (2 ^ 52 - 1) from rfl, hlast]
    omega
  · rw [show infinityCode = (2046 + 1) * 2 ^ 52 + 0 from rfl, hnext]
    omega

theorem overflow_mul_unitsPerOne :
    overflow * unitsPerOne = ((2 ^ 54 - 1) * 2 ^ 2044 : Nat) := by
  have htop : (2 : ℚ) ^ 1024 = 2 ^ 54 * 2 ^ 970 := pow_add 2 54 970
  have hhalf : (2 : ℚ) ^ 2044 = 2 ^ 970 * 2 ^ 1074 := pow_add 2 970 1074
  have hone : (unitsPerOne : ℚ) = 2 ^ 1074 := by
    rw [unitsPerOne_eq]
    generalize 1074 = exponent
    rw [Nat.cast_pow, Nat.cast_ofNat]
  have hfactor : ((2 ^ 54 - 1 : Nat) : ℚ) = 2 ^ 54 - 1 := by norm_num
  rw [Nat.cast_mul, hfactor, Nat.cast_pow, Nat.cast_ofNat, hhalf, overflow, htop, hone,
    ← sub_one_mul, mul_assoc]

theorem unitsOfCode_le {a b : Nat} (h : a ≤ b) : unitsOfCode a ≤ unitsOfCode b := by
  rcases Nat.lt_or_eq_of_le h with hlt | rfl
  · exact Nat.le_of_lt (unitsOfCode_lt hlt)
  · exact Nat.le_refl _

/-- Quotients stay finite up to half a step beyond the greatest finite magnitude. There
the even code is the infinite one. -/
theorem codeOfUnits_lt_infinityCode_iff (numerator : Nat) {denominator : Nat}
    (h : 0 < denominator) :
    codeOfUnits numerator denominator < infinityCode ↔
      numerator < (2 ^ 54 - 1) * 2 ^ 2044 * denominator := by
  obtain ⟨hlast, hnext⟩ := unitsOfCode_infinityCode
  obtain ⟨hnear, htie⟩ := distance_codeOfUnits_le numerator h infinityCode
  obtain ⟨hnear', -⟩ := distance_codeOfUnits_le numerator h (infinityCode - 1)
  have hodd : (infinityCode - 1) % 2 = 1 := by decide
  have hhalf : 0 < 2 ^ 2044 * denominator := by
    generalize 2044 = exponent
    exact Nat.mul_pos (Nat.two_pow_pos exponent) h
  generalize codeOfUnits numerator denominator = code at *
  simp only [distance, hnext, hlast, Nat.mul_assoc] at hnear htie hnear' ⊢
  constructor
  · intro hfinite
    rcases Nat.lt_or_eq_of_le (Nat.le_sub_one_of_lt hfinite) with hlt | rfl
    · have hbelow := Nat.mul_lt_mul_of_pos_right (unitsOfCode_lt hlt) h
      rw [hlast, Nat.mul_assoc] at hbelow
      generalize 2 ^ 2044 * denominator = half at *
      omega
    · rw [hlast, Nat.mul_assoc] at hnear htie
      generalize 2 ^ 2044 * denominator = half at *
      omega
  · intro hsmall
    refine Nat.lt_of_not_le fun hinfinite => ?_
    have habove := Nat.mul_le_mul_right denominator (unitsOfCode_le hinfinite)
    rw [hnext, Nat.mul_assoc] at habove
    generalize 2 ^ 2044 * denominator = half at *
    omega

theorem codeOfUnits_eq_zero {numerator denominator : Nat} (h : 2 * numerator < denominator) :
    codeOfUnits numerator denominator = 0 := by
  have hbelow : numerator / denominator = 0 := Nat.div_eq_of_lt (by omega)
  have hrest : numerator % denominator = numerator := Nat.mod_eq_of_lt (by omega)
  have hround : roundHalfEven numerator denominator = 0 := by
    simp only [roundHalfEven, hbelow, hrest]
    rw [if_neg (by omega)]
  simpa [codeOfUnits, hbelow] using hround

/-! ### Quotients -/

section Quotient

variable {negative : Bool} {numerator denominator : Nat}

theorem abs_magnitude_sub (code numerator : Nat) (h : 0 < denominator) :
    |magnitude code - numerator / denominator| =
      distance code (numerator * unitsPerOne) denominator / (unitsPerOne * denominator) := by
  have hone := cast_unitsPerOne_pos
  have hden : (0 : ℚ) < denominator := Nat.cast_pos.mpr h
  have hsub : magnitude code - numerator / denominator =
      (unitsOfCode code * denominator - numerator * unitsPerOne) /
        (unitsPerOne * denominator) := by
    rw [magnitude, div_sub_div _ _ hone.ne' hden.ne', mul_comm (unitsPerOne : ℚ) numerator]
  rw [hsub, abs_div, abs_of_pos (mul_pos hone hden), distance, Nat.cast_natAbs]
  simp only [Int.cast_abs, Int.cast_sub, Int.cast_mul, Int.cast_natCast, Nat.cast_mul]

theorem quotient_lt_overflow_iff (h : 0 < denominator) :
    (numerator : ℚ) / denominator < overflow ↔
      numerator * unitsPerOne < (2 ^ 54 - 1) * 2 ^ 2044 * denominator := by
  have hden : (0 : ℚ) < denominator := Nat.cast_pos.mpr h
  rw [div_lt_iff₀ hden, ← mul_lt_mul_iff_left₀ cast_unitsPerOne_pos, mul_right_comm,
    overflow_mul_unitsPerOne, ← Nat.cast_mul, ← Nat.cast_mul, Nat.cast_lt]

theorem hasEvenCode_signed {code : Fin (infinityCode + 1)} :
    (signed negative code).hasEvenCode = true ↔ code.val % 2 = 0 := by
  simp [hasEvenCode]

/-- A number of the other sign is no nearer than zero is. -/
theorem roundsTo_signed {code : Fin (infinityCode + 1)} (h : 0 < denominator)
    (hfinite : code.val < infinityCode)
    (hsmall : (numerator : ℚ) / denominator < overflow)
    (hnear : ∀ other, distance code (numerator * unitsPerOne) denominator ≤
        distance other (numerator * unitsPerOne) denominator ∧
      (distance code (numerator * unitsPerOne) denominator =
          distance other (numerator * unitsPerOne) denominator →
        code.val = other ∨ code.val % 2 = 0)) :
    RoundsTo (withSign negative (numerator / denominator)) (signed negative code) := by
  have hexact : (0 : ℚ) ≤ numerator / denominator := by positivity
  have hunit : (0 : ℚ) < unitsPerOne * denominator :=
    mul_pos cast_unitsPerOne_pos (Nat.cast_pos.mpr h)
  have hmagnitude (other : Nat) :
      |magnitude code - numerator / denominator| ≤ |magnitude other - numerator / denominator| ∧
        (|magnitude code - numerator / denominator| =
            |magnitude other - numerator / denominator| →
          code.val = other ∨ code.val % 2 = 0) := by
    obtain ⟨hle, htie⟩ := hnear other
    rw [abs_magnitude_sub _ _ h, abs_magnitude_sub _ _ h]
    refine ⟨div_le_div_of_nonneg_right (Nat.cast_le.mpr hle) hunit.le, fun heq => htie ?_⟩
    exact Nat.cast_injective ((div_left_inj' hunit.ne').mp heq)
  rw [RoundsTo, abs_withSign hexact, if_pos hsmall]
  refine ⟨_, value?_signed.mpr ⟨hfinite, rfl⟩, ?_⟩
  intro y w hw
  cases y with
  | nan => simp only [value?_nan, reduceCtorEq] at hw
  | signed sign other =>
      obtain ⟨-, rfl⟩ := value?_signed.mp hw
      rw [abs_withSign_sub, hasEvenCode_signed]
      by_cases hsign : sign = negative
      · obtain ⟨hle, htie⟩ := hmagnitude other
        rw [hsign, abs_withSign_sub]
        refine ⟨hle, fun heq => (htie heq).imp_left fun hsame => by rw [hsame]⟩
      · obtain rfl : sign = !negative := Bool.eq_not.mpr hsign
        obtain ⟨hle, htie⟩ := hmagnitude 0
        have hzero : magnitude 0 = 0 := by
          rw [magnitude, unitsOfCode_of_lt (by decide), Nat.cast_zero, zero_div]
        rw [hzero, zero_sub, abs_neg, abs_of_nonneg hexact] at hle htie
        rw [abs_withSign_not_sub _ (magnitude_nonneg _) hexact]
        have hother := magnitude_nonneg other
        refine ⟨by linarith, fun heq => .inr ?_⟩
        rcases htie (by linarith) with hsame | heven
        · rw [hsame]
        · exact heven

theorem roundsTo_ofQuotient (negative : Bool) (numerator : Nat) (h : 0 < denominator) :
    RoundsTo (withSign negative (numerator / denominator))
      (ofQuotient negative numerator denominator) := by
  have hfinite := codeOfUnits_lt_infinityCode_iff (numerator * unitsPerOne) h
  rw [← quotient_lt_overflow_iff h] at hfinite
  by_cases hsmall : (numerator : ℚ) / denominator < overflow
  · have hmin := Nat.min_eq_right (Nat.le_of_lt (hfinite.mpr hsmall))
    apply roundsTo_signed h
    · exact hmin.trans_lt (hfinite.mpr hsmall)
    · exact hsmall
    · simp only [hmin]
      exact distance_codeOfUnits_le _ h
  · have hexact : (0 : ℚ) ≤ numerator / denominator := by positivity
    have hpos : (0 : ℚ) < numerator / denominator := by
      refine lt_of_lt_of_le ?_ (not_lt.mp hsmall)
      rw [overflow, sub_pos]
      exact pow_lt_pow_right₀ (by norm_num) (by norm_num)
    have hmin := Nat.min_eq_left (Nat.le_of_not_lt (mt hfinite.mp hsmall))
    have hsign : decide (withSign negative (numerator / denominator) < 0) = negative := by
      rw [Bool.eq_iff_iff, decide_eq_true_eq, withSign_neg_iff hpos]
    rw [RoundsTo, abs_withSign hexact, if_neg hsmall, ofQuotient, hsign]
    exact congrArg (signed negative) (Fin.ext hmin)

theorem ofQuotient_eq_zero (negative : Bool) (h : 2 * (numerator * unitsPerOne) < denominator) :
    ofQuotient negative numerator denominator = signed negative ⟨0, Nat.succ_pos _⟩ := by
  have hmin : min infinityCode (codeOfUnits (numerator * unitsPerOne) denominator) = 0 := by
    rw [codeOfUnits_eq_zero h]
    exact Nat.min_zero _
  exact congrArg (signed negative) (Fin.ext hmin)

theorem ofQuotient_eq_infinity (negative : Bool) (hpos : 0 < denominator)
    (h : 2 ^ 1024 * denominator ≤ numerator) :
    ofQuotient negative numerator denominator = signed negative (Fin.last infinityCode) := by
  have hlarge : ¬(numerator : ℚ) / denominator < overflow := by
    have hden : (0 : ℚ) < denominator := Nat.cast_pos.mpr hpos
    have hcast : ((2 ^ 1024 * denominator : Nat) : ℚ) ≤ numerator := Nat.cast_le.mpr h
    have htop : overflow ≤ 2 ^ 1024 := sub_le_self _ (by positivity)
    rw [Nat.cast_mul, Nat.cast_pow, Nat.cast_ofNat] at hcast
    exact not_lt.mpr (htop.trans ((le_div_iff₀ hden).mpr hcast))
  rw [quotient_lt_overflow_iff hpos, ← codeOfUnits_lt_infinityCode_iff _ hpos] at hlarge
  rw [ofQuotient]
  exact congrArg (signed negative) (Fin.ext (Nat.min_eq_left (Nat.le_of_not_lt hlarge)))

end Quotient

/-! ### Decimals -/

theorem two_pow_le_ten_pow {bits digits : Nat} (h : bits ≤ 3 * digits) :
    2 ^ bits ≤ 10 ^ digits := by
  calc
    2 ^ bits ≤ 2 ^ (3 * digits) := Nat.pow_le_pow_right (by decide) h
    _ = (2 ^ 3) ^ digits := Nat.pow_mul ..
    _ ≤ 10 ^ digits := Nat.pow_le_pow_left (by decide) digits

theorem two_mul_unitsPerOne_le : 2 * unitsPerOne ≤ 10 ^ 401 := by
  have hbits : 1074 + 1 ≤ 3 * 401 := by decide
  rw [unitsPerOne_eq]
  generalize 1074 = bits, 401 = digits at *
  rw [← Nat.pow_succ']
  exact two_pow_le_ten_pow hbits

/-- A positive number lies between two powers of ten that the number of its digits
tells. -/
theorem toDigits_bounds {n : Nat} (h : n ≠ 0) :
    10 ^ ((Nat.toDigits 10 n).length - 1) ≤ n ∧ n < 10 ^ (Nat.toDigits 10 n).length := by
  have hlength : 0 < (Nat.toDigits 10 n).length := List.length_pos_iff.mpr Nat.toDigits_ne_nil
  constructor
  · by_cases hone : (Nat.toDigits 10 n).length = 1
    · rw [hone]
      exact Nat.one_le_iff_ne_zero.mpr h
    · refine Nat.le_of_not_lt fun hlt => ?_
      have hle := (Nat.length_toDigits_le_iff (by decide) (by omega)).mpr hlt
      omega
  · exact (Nat.length_toDigits_le_iff (by decide) hlength).mp (Nat.le_refl _)

/-- Settling exponents that are far out changes no result. -/
theorem ofDecimal_eq_ofQuotient (negative : Bool) (coefficient : Nat) (exponent : Int) :
    ofDecimal negative coefficient exponent =
      ofQuotient negative (coefficient * 10 ^ exponent.toNat) (10 ^ (-exponent).toNat) := by
  have hden : 0 < 10 ^ (-exponent).toNat := Nat.pow_pos (by decide)
  rw [ofDecimal]
  split
  · rename_i hsmall
    symm
    apply ofQuotient_eq_zero
    by_cases hzero : coefficient = 0
    · rw [hzero, Nat.zero_mul, Nat.zero_mul]
      exact hden
    · have hfar := hsmall.resolve_left hzero
      obtain ⟨-, hlt⟩ := toDigits_bounds hzero
      generalize (Nat.toDigits 10 coefficient).length = digits at *
      have hexponent : exponent.toNat = 0 := by omega
      calc
        2 * (coefficient * 10 ^ exponent.toNat * unitsPerOne)
            = coefficient * (2 * unitsPerOne) := by
          rw [hexponent, Nat.pow_zero, Nat.mul_one, Nat.mul_left_comm]
        _ ≤ coefficient * 10 ^ 401 := Nat.mul_le_mul_left _ two_mul_unitsPerOne_le
        _ < 10 ^ digits * 10 ^ 401 := by
          apply Nat.mul_lt_mul_of_pos_right hlt
          exact Nat.lt_of_lt_of_le (Nat.mul_pos Nat.two_pos unitsPerOne_pos) two_mul_unitsPerOne_le
        _ = 10 ^ (digits + 401) := by rw [Nat.pow_add]
        _ ≤ 10 ^ (-exponent).toNat := Nat.pow_le_pow_right (by decide) (by omega)
  · rename_i hsome
    have hzero : coefficient ≠ 0 := fun h => hsome (.inl h)
    split
    · rename_i hfar
      symm
      apply ofQuotient_eq_infinity negative hden
      obtain ⟨hle, -⟩ := toDigits_bounds hzero
      generalize (Nat.toDigits 10 coefficient).length = digits at *
      calc
        2 ^ 1024 * 10 ^ (-exponent).toNat
            ≤ 10 ^ 400 * 10 ^ (-exponent).toNat :=
          Nat.mul_le_mul_right _ (two_pow_le_ten_pow (by decide))
        _ = 10 ^ (400 + (-exponent).toNat) := by rw [Nat.pow_add]
        _ ≤ 10 ^ (digits - 1 + exponent.toNat) := Nat.pow_le_pow_right (by decide) (by omega)
        _ = 10 ^ (digits - 1) * 10 ^ exponent.toNat := Nat.pow_add ..
        _ ≤ coefficient * 10 ^ exponent.toNat := Nat.mul_le_mul_right _ hle
    · rfl

/-- A decimal is rounded to the nearest number, whatever its exponent. -/
theorem roundsTo_ofDecimal (negative : Bool) (coefficient : Nat) (exponent : Int) :
    RoundsTo (withSign negative (coefficient * 10 ^ exponent))
      (ofDecimal negative coefficient exponent) := by
  have hvalue : (coefficient : ℚ) * 10 ^ exponent =
      (coefficient * 10 ^ exponent.toNat : Nat) / (10 ^ (-exponent).toNat : Nat) := by
    push_cast
    rcases Int.le_total 0 exponent with hle | hle
    · lift exponent to Nat using hle
      simp
    · obtain ⟨places, hplaces⟩ := Int.eq_ofNat_of_zero_le (Int.neg_nonneg_of_nonpos hle)
      obtain rfl : exponent = -places := by omega
      simp [div_eq_mul_inv]
  rw [hvalue, ofDecimal_eq_ofQuotient]
  exact roundsTo_ofQuotient negative _ (Nat.pow_pos (by decide))

theorem sign?_ofDecimal (negative : Bool) (coefficient : Nat) (exponent : Int) :
    (ofDecimal negative coefficient exponent).sign? = some negative := by
  rw [ofDecimal_eq_ofQuotient]
  rfl

section Unique

variable {a b c e : ℚ}

theorem abs_sub_lt_of_between (hlow : a < c) (hhigh : c < b) (h : |a - e| = |b - e|) :
    |c - e| < |a - e| := by
  rcases abs_eq_abs.mp h with heq | heq
  · linarith
  · rw [abs_of_neg (show a - e < 0 by linarith), abs_lt]
    constructor <;> linarith

theorem magnitude_injective {m n : Nat} (h : magnitude m = magnitude n) : m = n := by
  rcases Nat.lt_trichotomy m n with hlt | heq | hgt
  · exact absurd h (magnitude_lt hlt).ne
  · exact heq
  · exact absurd h (magnitude_lt hgt).ne'

theorem withSign_injective {negative : Bool} (h : withSign negative a = withSign negative b) :
    a = b := by
  cases negative with
  | false => exact h
  | true => exact neg_injective h

/-- Between two even codes there is another one, and its magnitude is nearer. -/
theorem not_tie_of_even {negative : Bool} {m n : Fin (infinityCode + 1)} (hlt : m.val < n.val)
    (hm : m.val % 2 = 0) (hn : n.val % 2 = 0)
    (hnear : ∀ (y : Binary64) (w : ℚ), y.value? = some w →
      |withSign negative (magnitude m) - e| ≤ |w - e|)
    (htie : |withSign negative (magnitude m) - e| = |withSign negative (magnitude n) - e|) :
    False := by
  have hcode : m.val + 1 < infinityCode := by
    have hn := n.isLt
    omega
  have hvalue : (signed negative ⟨m.val + 1, Nat.lt_succ_of_lt hcode⟩).value? =
      some (withSign negative (magnitude (m.val + 1))) := value?_signed.mpr ⟨hcode, rfl⟩
  have hlow := magnitude_lt (Nat.lt_succ_self m.val)
  have hhigh := magnitude_lt (show m.val + 1 < n.val by omega)
  refine absurd (hnear _ _ hvalue) (not_le.mpr ?_)
  cases negative with
  | false => exact abs_sub_lt_of_between hlow hhigh htie
  | true =>
      rw [htie]
      exact abs_sub_lt_of_between (neg_lt_neg hhigh) (neg_lt_neg hlow) htie.symm

/-- The exact value and the sign leave one number to round to. -/
theorem RoundsTo.unique {x y : Binary64} (hx : RoundsTo e x) (hy : RoundsTo e y)
    (hsign : x.sign? = y.sign?) : x = y := by
  rw [RoundsTo] at hx hy
  split at hx
  · rename_i hsmall
    rw [if_pos hsmall] at hy
    obtain ⟨v, hv, hx⟩ := hx
    obtain ⟨w, hw, hy⟩ := hy
    cases x with
    | nan => simp only [value?_nan, reduceCtorEq] at hv
    | signed negative m =>
        cases y with
        | nan => simp only [value?_nan, reduceCtorEq] at hw
        | signed sign n =>
            obtain rfl : negative = sign := Option.some.inj hsign
            have hv' := (value?_signed.mp hv).2
            have hw' := (value?_signed.mp hw).2
            have hsame : |v - e| = |w - e| := le_antisymm (hx _ _ hw).1 (hy _ _ hv).1
            by_cases hvw : v = w
            · rw [hv', hw'] at hvw
              rw [Fin.ext (magnitude_injective (withSign_injective hvw))]
            · have hm := hasEvenCode_signed.mp (((hx _ _ hw).2 hsame).resolve_left hvw)
              have hn := hasEvenCode_signed.mp
                (((hy _ _ hv).2 hsame.symm).resolve_left (Ne.symm hvw))
              subst hv' hw'
              rcases Nat.lt_trichotomy m.val n.val with hlt | heq | hgt
              · exact (not_tie_of_even hlt hm hn (fun y w h => (hx y w h).1) hsame).elim
              · rw [Fin.ext heq]
              · exact (not_tie_of_even hgt hn hm (fun y w h => (hy y w h).1) hsame.symm).elim
  · rename_i hlarge
    rw [if_neg hlarge] at hy
    rw [hx, hy]

end Unique

end TableQuery.Binary64
