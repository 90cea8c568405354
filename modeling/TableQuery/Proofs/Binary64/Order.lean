import TableQuery.Proofs.Binary64.Decimals

/-!
Numbers are ordered by their exact values. The order goes by codes, which grow with the
magnitudes; a sign turns it round, and the two zeros are at one place because they have
one value. Beyond all finite numbers there are the infinities at the two ends.
-/

namespace TableQuery.Binary64

theorem order?_eq_some_iff {x y : Binary64} {order : Ordering} :
    x.order? y = some order ↔
      ∃ a b, x.rank? = some a ∧ y.rank? = some b ∧ compare a b = order := by
  rw [order?, Option.bind_eq_some_iff]
  constructor
  · rintro ⟨a, ha, h⟩
    obtain ⟨b, hb, h⟩ := Option.map_eq_some_iff.mp h
    exact ⟨a, b, ha, hb, h⟩
  · rintro ⟨a, b, ha, hb, h⟩
    exact ⟨a, ha, Option.map_eq_some_iff.mpr ⟨b, hb, h⟩⟩

theorem order?_lt_trans {x y z : Binary64} (hxy : x.order? y = some .lt)
    (hyz : y.order? z = some .lt) : x.order? z = some .lt := by
  obtain ⟨a, b, ha, hb, hab⟩ := order?_eq_some_iff.mp hxy
  obtain ⟨b', c, hb', hc, hbc⟩ := order?_eq_some_iff.mp hyz
  obtain rfl : b = b' := Option.some.inj (hb.symm.trans hb')
  exact order?_eq_some_iff.mpr ⟨a, c, ha, hc, Std.TransCmp.lt_trans hab hbc⟩

/-- Equal numbers are at one place, so they compare alike with all others. -/
theorem order?_congr {x y : Binary64} (h : x.equals y = true) (z : Binary64) :
    x.order? z = y.order? z := by
  obtain ⟨a, b, ha, hb, hab⟩ := order?_eq_some_iff.mp (beq_iff_eq.mp h)
  obtain rfl := Std.compare_eq_iff_eq.mp hab
  rw [order?, order?, ha, hb]

/-- The exact value at a place on the number line. -/
def valueAt (rank : Int) : ℚ :=
  withSign (rank < 0) (magnitude rank.natAbs)

theorem magnitude_zero : magnitude 0 = 0 := by
  rw [magnitude, unitsOfCode_of_lt (by decide), Nat.cast_zero, zero_div]

theorem valueAt_nonneg {rank : Int} (h : 0 ≤ rank) : 0 ≤ valueAt rank := by
  rw [valueAt, decide_eq_false (by omega)]
  exact magnitude_nonneg _

theorem valueAt_neg {rank : Int} (h : rank < 0) : valueAt rank < 0 := by
  rw [valueAt, withSign_neg_iff, decide_eq_true_eq]
  · exact h
  · rw [← magnitude_zero]
    exact magnitude_lt (by omega)

theorem valueAt_lt {a b : Int} (h : a < b) : valueAt a < valueAt b := by
  by_cases ha : a < 0
  · by_cases hb : b < 0
    · rw [valueAt, valueAt, decide_eq_true ha, decide_eq_true hb]
      exact neg_lt_neg (magnitude_lt (by omega))
    · exact (valueAt_neg ha).trans_le (valueAt_nonneg (by omega))
  · rw [valueAt, valueAt, decide_eq_false ha, decide_eq_false (by omega)]
    exact magnitude_lt (by omega)

theorem exists_rank_of_value? {x : Binary64} {v : ℚ} (h : x.value? = some v) :
    ∃ rank : Int, x.rank? = some rank ∧ v = valueAt rank ∧ rank.natAbs < infinityCode := by
  cases x with
  | nan => simp [value?_nan] at h
  | signed negative code =>
      obtain ⟨hfinite, rfl⟩ := value?_signed.mp h
      refine ⟨_, rfl, ?_, ?_⟩
      · cases negative with
        | false => rw [if_neg (by decide), valueAt, decide_eq_false (by omega), Int.natAbs_natCast]
        | true =>
            by_cases hcode : code.val = 0
            · simp [valueAt, hcode, magnitude_zero, withSign]
            · rw [if_pos rfl, valueAt, decide_eq_true (by omega), Int.natAbs_neg,
                Int.natAbs_natCast]
      · cases negative with
        | false => simpa using hfinite
        | true => simpa using hfinite

/-- The order of finite numbers is the order of their exact values. -/
theorem order?_eq_compare_value {x y : Binary64} {v w : ℚ} (hx : x.value? = some v)
    (hy : y.value? = some w) : x.order? y = some (compare v w) := by
  obtain ⟨a, ha, rfl, -⟩ := exists_rank_of_value? hx
  obtain ⟨b, hb, rfl, -⟩ := exists_rank_of_value? hy
  have hmono : StrictMono valueAt := fun a b => valueAt_lt
  rw [order?, ha, hb, Option.bind_some, Option.map_some, ← cmp_eq_compare (valueAt a),
    hmono.cmp_map_eq, cmp_eq_compare]

theorem order?_infinity {x : Binary64} {v : ℚ} (h : x.value? = some v) :
    (signed true (Fin.last infinityCode)).order? x = some .lt ∧
      x.order? (signed false (Fin.last infinityCode)) = some .lt := by
  obtain ⟨a, ha, -, hfinite⟩ := exists_rank_of_value? h
  have hlow : compare (-(infinityCode : Int)) a = .lt := compare_lt_iff_lt.mpr (by omega)
  have hhigh : compare a infinityCode = .lt := compare_lt_iff_lt.mpr (by omega)
  rw [order?, order?, ha]
  exact ⟨congrArg some hlow, congrArg some hhigh⟩

end TableQuery.Binary64
