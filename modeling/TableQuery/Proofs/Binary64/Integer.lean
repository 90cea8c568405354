import TableQuery.Binary64.Integer
import TableQuery.Proofs.Binary64.Order
import TableQuery.Proofs.Binary64.Scaling

/-!
Which numbers are integers, and what becomes of them as integers of sixty-four bits. A
number is an integer just in case nothing is left when its integer part is taken away:
what is left is a multiple of the smallest magnitude, so rounding does not make it vanish.
Below 2⁶³ in magnitude the conversion to sixty-four bits changes nothing.
-/

namespace TableQuery.Binary64

variable {x y : Binary64} {n : Int} {v w : ℚ}

theorem value?_eq_intCast_iff : x.value? = some (n : ℚ) ↔ x.toInt? = some n := by
  have hone := cast_unitsPerOne_pos
  rw [toInt?_eq_some_iff, value?, Option.map_eq_some_iff]
  generalize unitsPerOne = one at hone
  constructor
  · rintro ⟨units, hunits, h⟩
    rw [div_eq_iff hone.ne'] at h
    rw [hunits]
    exact congrArg some (by exact_mod_cast h)
  · intro h
    refine ⟨_, h, ?_⟩
    rw [Int.cast_mul, Int.cast_natCast, mul_div_cancel_right₀ _ hone.ne']

theorem value?_ofInt_of_toInt? (h : x.toInt? = some n) : (ofInt n).value? = some (n : ℚ) := by
  have hvalue := value?_eq_intCast_iff.mpr h
  rw [ofInt_of_toInt? h]
  cases x with
  | nan => exact hvalue
  | signed negative code =>
      rw [mergeZeros]
      split
      · rename_i hcode
        rw [toInt?_of_code_zero negative hcode, Option.some.injEq] at h
        rw [← h]
        exact value?_eq_intCast_iff.mpr (toInt?_of_code_zero false rfl)
      · exact hvalue

theorem equals_zero_signed {negative : Bool} {code : Fin (infinityCode + 1)} :
    (signed negative code).equals zero = true ↔ code.val = 0 := by
  have hrank : zero.rank? = some 0 := rfl
  rw [equals, order?, rank?, hrank, Option.bind_some, Option.map_some, beq_iff_eq,
    Option.some.injEq, Std.compare_eq_iff_eq]
  cases negative with
  | false => rw [if_neg (by decide), Int.natCast_eq_zero]
  | true => rw [if_pos rfl, Int.neg_eq_zero, Int.natCast_eq_zero]

theorem codeOfUnits_eq_zero_iff {units : Nat} : codeOfUnits units 1 = 0 ↔ units = 0 := by
  constructor
  · intro h
    have hunit : codeOfUnits 1 1 = 1 := by
      have hself := codeOfUnits_unitsOfCode 1
      rwa [unitsOfCode_of_lt (by decide)] at hself
    refine Nat.eq_zero_of_not_pos fun hpos => ?_
    have hmono : codeOfUnits 1 1 ≤ codeOfUnits units 1 := codeOfUnits_mono Nat.one_pos hpos
    omega
  · rintro rfl
    exact codeOfUnits_eq_zero (by decide)

theorem equals_zero_ofUnits {units : Int} : (ofUnits units).equals zero = true ↔ units = 0 := by
  have hmin : min infinityCode (codeOfUnits units.natAbs 1) = 0 ↔
      codeOfUnits units.natAbs 1 = 0 := by
    have hpos : 0 < infinityCode := by decide
    omega
  rw [ofUnits, equals_zero_signed, hmin, codeOfUnits_eq_zero_iff, Int.natAbs_eq_zero]

theorem equals_zero_fraction : x.fraction.equals zero = true ↔ ∃ n, x.toInt? = some n := by
  simp only [toInt?_eq_some_iff, fraction]
  cases x.units? with
  -- Nothing equals NaN.
  | none =>
      constructor
      · exact fun h => absurd h (by decide)
      · rintro ⟨n, h⟩
        exact absurd h (Option.some_ne_none _).symm
  | some units =>
      simp only [equals_zero_ofUnits, ← Int.dvd_iff_tmod_eq_zero, Option.some.injEq]
      exact dvd_iff_exists_eq_mul_left

theorem equals_of_value?_eq (hx : x.value? = some v) (hy : y.value? = some v) :
    x.equals y = true := by
  rw [equals, order?_eq_compare_value hx hy, Std.compare_self, beq_self_eq_true]

theorem value?_abs (h : x.value? = some v) : x.abs.value? = some |v| := by
  cases x with
  | nan => simp [value?_nan] at h
  | signed negative code =>
      obtain ⟨hfinite, rfl⟩ := value?_signed.mp h
      rw [abs_withSign (magnitude_nonneg code)]
      exact value?_signed.mpr ⟨hfinite, rfl⟩

theorem order?_abs_eq_lt_iff (hx : x.value? = some v) (hy : y.value? = some w) :
    x.abs.order? y = some .lt ↔ |v| < w := by
  rw [order?_eq_compare_value (value?_abs hx) hy, Option.some.injEq, compare_lt_iff_lt]

/-- The greatest integer of sixty-four bits is rounded up. -/
theorem value?_ofInt_maxValue : (ofInt Int64.maxValue.toInt).value? = some (2 ^ 63) := by
  have hinteger : (ofInt Int64.maxValue.toInt).toInt? = some (2 ^ 63) := by decide +kernel
  exact_mod_cast value?_eq_intCast_iff.mpr hinteger

theorem toInt_toInt64 (h : x.toInt? = some n) (hn : n.natAbs < 2 ^ 63) :
    x.toInt64.toInt = n := by
  have hunits := toInt?_eq_some_iff.mp h
  have hone := unitsPerOne_pos
  have hconvert : x.toInt64 = Int64.ofIntClamp n := by
    unfold toInt64
    generalize unitsPerOne = one at *
    rw [hunits]
    simp only [Int.mul_tdiv_cancel n (show (one : Int) ≠ 0 by omega)]
  rw [hconvert]
  exact Int64.toInt_ofIntClamp (by rw [Int64.toInt_minValue]; omega)
    (by rw [Int64.toInt_maxValue]; omega)

end TableQuery.Binary64
