import TableQuery.Binary64.Shortest
import TableQuery.Proofs.Binary64.Decimals

/-!
The shortest decimal of a number reads back. Every decimal in the interval of a
magnitude is rounded to that magnitude, because it lies no further from it than
halfway to a neighbour. The search always finds one: on a grid of seventeen digits
the points are closer to each other than the ends of the interval are, so one of
the two points next to the value is inside.
-/

namespace TableQuery.Binary64

theorem contains_interval_iff {code point scale : Nat} :
    (interval code).contains point scale = true ↔
      ((unitsOfCode (code - 1) + unitsOfCode code) * scale ≤ point ∧
          point ≤ (unitsOfCode code + unitsOfCode (code + 1)) * scale) ∧
        ((unitsOfCode (code - 1) + unitsOfCode code) * scale = point ∨
            point = (unitsOfCode code + unitsOfCode (code + 1)) * scale → code % 2 = 0) := by
  unfold Interval.contains interval
  by_cases heven : code % 2 = 0
  · simp [heven]
  · simp only [heven, decide_false, Bool.false_eq_true, if_false, Bool.and_eq_true,
      decide_eq_true_eq, imp_false, not_or]
    omega

theorem codeOfUnits_of_contains {code numerator denominator : Nat} (h : 0 < denominator)
    (hcontains : (interval code).contains (2 * numerator) denominator = true) :
    codeOfUnits numerator denominator = code := by
  obtain ⟨⟨hlow, hhigh⟩, hends⟩ := contains_interval_iff.mp hcontains
  obtain ⟨hnear, htie⟩ := distance_codeOfUnits_le numerator h code
  simp only [distance] at hnear htie
  simp only [Nat.add_mul] at hlow hhigh hends
  generalize codeOfUnits numerator denominator = found at *
  -- A magnitude on one side is no nearer than the neighbour there, and the neighbour is
  -- as near only at the end of the interval.
  rcases Nat.lt_trichotomy found code with hlt | heq | hgt
  · have hle := Nat.mul_le_mul_right denominator (unitsOfCode_le (Nat.le_sub_one_of_lt hlt))
    have hless := Nat.mul_lt_mul_of_pos_right (unitsOfCode_lt hlt) h
    have hsame : unitsOfCode found = unitsOfCode (code - 1) :=
      Nat.eq_of_mul_eq_mul_right h (by omega)
    have heven := hends (.inl (by omega))
    have hfound := unitsOfCode_injective hsame
    omega
  · exact heq
  · have hnext : code + 1 ≤ found := hgt
    have hle := Nat.mul_le_mul_right denominator (unitsOfCode_le hnext)
    have hless := Nat.mul_lt_mul_of_pos_right (unitsOfCode_lt hgt) h
    have hsame : unitsOfCode found = unitsOfCode (code + 1) :=
      Nat.eq_of_mul_eq_mul_right h (by omega)
    have heven := hends (.inr (by omega))
    have hfound := unitsOfCode_injective hsame
    omega

/-- The neighbours of a magnitude are further apart than its 2⁵²th part. At a power
of two the lower neighbour is only half a step away. -/
theorem unitsOfCode_lt_width {code : Nat} (h : code ≠ 0) :
    2 * unitsOfCode code + 2 ^ 53 * unitsOfCode (code - 1) < 2 ^ 53 * unitsOfCode (code + 1) := by
  obtain ⟨scale, steps, rfl, hsteps, hscale⟩ := exists_steps code
  have hnext : unitsOfCode (scale * 2 ^ 52 + steps + 1) = (steps + 1) * 2 ^ scale := by
    rw [Nat.add_assoc]
    exact unitsOfCode_steps (by omega) (hscale.imp_right fun h => by omega)
  have hpos := Nat.two_pow_pos scale
  rw [hnext, unitsOfCode_steps (by omega) hscale]
  by_cases hlow : scale = 0 ∨ 2 ^ 52 < steps
  · have hbefore : unitsOfCode (scale * 2 ^ 52 + steps - 1) = (steps - 1) * 2 ^ scale := by
      have hcode : scale * 2 ^ 52 + steps - 1 = scale * 2 ^ 52 + (steps - 1) := by omega
      rw [hcode]
      exact unitsOfCode_steps (by omega) (by omega)
    have hone : steps = steps - 1 + 1 := by omega
    rw [hbefore, hone, Nat.add_sub_cancel]
    have hbound := Nat.mul_lt_mul_of_pos_right (show steps - 1 + 1 < 2 ^ 53 by omega) hpos
    simp only [Nat.add_mul, Nat.one_mul] at hbound ⊢
    omega
  · obtain ⟨before, rfl⟩ := Nat.exists_eq_succ_of_ne_zero (not_or.mp hlow).1
    obtain rfl : steps = 2 ^ 52 := by omega
    have hbefore : unitsOfCode ((before + 1) * 2 ^ 52 + 2 ^ 52 - 1) =
        (2 ^ 53 - 1) * 2 ^ before := by
      have hcode : (before + 1) * 2 ^ 52 + 2 ^ 52 - 1 = before * 2 ^ 52 + (2 ^ 53 - 1) := by omega
      rw [hcode]
      exact unitsOfCode_steps (by omega) (.inr (by omega))
    rw [hbefore, Nat.succ_eq_add_one, Nat.pow_succ]
    have hhalf := Nat.two_pow_pos before
    omega

/-! ### Grids -/

namespace Interval

variable {code : Nat} {tie : Tie} {exponent : Int}

/-- How far apart the points of a grid are, in halves of the smallest magnitude after
multiplying by the scale. -/
def step (exponent : Int) : Nat :=
  Nat.pow 10 exponent.toNat * (2 * unitsPerOne)

/-- What makes the points of a grid whole. -/
def scale (exponent : Int) : Nat :=
  Nat.pow 10 (-exponent).toNat

theorem step_eq (exponent : Int) : step exponent = 2 * (10 ^ exponent.toNat * unitsPerOne) := by
  unfold step
  generalize unitsPerOne = one
  exact Nat.mul_left_comm ..

theorem step_pos (exponent : Int) : 0 < step exponent := by
  rw [step_eq]
  exact Nat.mul_pos Nat.two_pos (Nat.mul_pos (Nat.pow_pos (by decide)) unitsPerOne_pos)

theorem scale_pos (exponent : Int) : 0 < scale exponent :=
  Nat.pow_pos (by decide)

/-- What is found is in the interval, and it is one of the two points of the grid next to
the value. -/
theorem of_nearest?_eq_some {i : Interval} {d : Decimal} (h : i.nearest? tie exponent = some d) :
    d.exponent = exponent ∧ i.contains (d.coefficient * step exponent) (scale exponent) = true ∧
      d.coefficient ≤ i.value * scale exponent / step exponent + 1 := by
  unfold nearest? at h
  rw [← step, ← scale] at h
  generalize step exponent = step, scale exponent = scale at *
  dsimp only at h
  split at h
  · rename_i hbelow habove
    obtain rfl := Option.some.inj h
    dsimp only
    split_ifs
    · exact ⟨rfl, habove, Nat.le_refl _⟩
    · exact ⟨rfl, hbelow, Nat.le_succ _⟩
  · rename_i hbelow _
    obtain rfl := Option.some.inj h
    exact ⟨rfl, hbelow, Nat.le_succ _⟩
  · rename_i _ habove
    obtain rfl := Option.some.inj h
    exact ⟨rfl, habove, Nat.le_refl _⟩
  · simp at h

/-- Of two points on either side of the value, one is in the interval if they are closer
to each other than the interval is wide. -/
theorem contains_or_contains {below above scale : Nat} (hcode : code ≠ 0) (hscale : 0 < scale)
    (hbelow : below ≤ (interval code).value * scale)
    (habove : (interval code).value * scale ≤ above)
    (h : above + unitsOfCode (code - 1) * scale < below + unitsOfCode (code + 1) * scale) :
    (interval code).contains below scale = true ∨ (interval code).contains above scale = true := by
  have hvalue : (interval code).value * scale = 2 * (unitsOfCode code * scale) :=
    Nat.mul_assoc ..
  have hlow := Nat.mul_lt_mul_of_pos_right (unitsOfCode_lt (show code - 1 < code by omega)) hscale
  have hhigh := Nat.mul_lt_mul_of_pos_right (unitsOfCode_lt_succ code) hscale
  simp only [contains_interval_iff, Nat.add_mul]
  omega

/-- A grid that is finer than the interval is wide has a point in it. -/
theorem exists_nearest?_eq_some (tie : Tie) (hcode : code ≠ 0)
    (h : step exponent + unitsOfCode (code - 1) * scale exponent <
      unitsOfCode (code + 1) * scale exponent) :
    ∃ d, (interval code).nearest? tie exponent = some d := by
  have hscale := scale_pos exponent
  have hstep := step_pos exponent
  unfold nearest?
  rw [← step, ← scale]
  generalize step exponent = step, scale exponent = scale at *
  dsimp only
  split
  · exact ⟨_, rfl⟩
  · exact ⟨_, rfl⟩
  · exact ⟨_, rfl⟩
  · rename_i hbelow habove
    have hfloor := Nat.div_mul_le_self ((interval code).value * scale) step
    have hceil := Nat.lt_div_mul_add hstep (a := (interval code).value * scale)
    have hwidth : ((interval code).value * scale / step + 1) * step =
        (interval code).value * scale / step * step + step := Nat.succ_mul ..
    rw [← hwidth] at hceil
    rcases contains_or_contains hcode hscale hfloor hceil.le (by omega) with hin | hin
    · simp [hin] at hbelow
    · simp [hin] at habove

end Interval

theorem mul_ten_pow_le_iff {a b i j i' j' : Nat} (h : i + j' = i' + j) :
    a * 10 ^ i ≤ b * 10 ^ j ↔ a * 10 ^ i' ≤ b * 10 ^ j' := by
  have hshift (i j more : Nat) :
      a * 10 ^ (i + more) ≤ b * 10 ^ (j + more) ↔ a * 10 ^ i ≤ b * 10 ^ j := by
    rw [Nat.pow_add, Nat.pow_add, ← Nat.mul_assoc, ← Nat.mul_assoc]
    exact Nat.mul_le_mul_right_iff (Nat.pow_pos (by decide))
  rcases Nat.le_total i i' with hle | hle
  · obtain ⟨more, rfl⟩ := Nat.exists_eq_add_of_le hle
    obtain rfl : j' = j + more := by omega
    exact (hshift i j more).symm
  · obtain ⟨more, rfl⟩ := Nat.exists_eq_add_of_le hle
    obtain rfl : j = j' + more := by omega
    exact hshift i' j' more

theorem ten_pow_le_iff_lt_length {n : Nat} (h : n ≠ 0) (digits : Nat) :
    10 ^ digits ≤ n ↔ digits < (Nat.toDigits 10 n).length := by
  have hlt : n < 10 ^ digits ↔ (Nat.toDigits 10 n).length ≤ digits := by
    rcases Nat.eq_zero_or_pos digits with rfl | hpos
    · have hlength : 0 < (Nat.toDigits 10 n).length :=
        List.length_pos_iff.mpr Nat.toDigits_ne_nil
      rw [Nat.pow_zero]
      omega
    · exact (Nat.length_toDigits_le_iff (by decide) hpos).symm
  rw [← Nat.not_lt, hlt, Nat.not_le]

section Point

variable {code : Nat}

theorem unitsPerOne_le : unitsPerOne ≤ 10 ^ 400 := by
  have hbits : 1074 ≤ 3 * 400 := by decide
  rw [unitsPerOne_eq]
  generalize 1074 = bits, 400 = digits at *
  exact two_pow_le_ten_pow hbits

theorem unitsOfCode_mul_div_ne_zero (hcode : code ≠ 0) :
    unitsOfCode code * 10 ^ 400 / unitsPerOne ≠ 0 := by
  have hpos : 0 < unitsOfCode code := Nat.zero_lt_of_lt (unitsOfCode_lt (Nat.pos_of_ne_zero hcode))
  have hone := unitsPerOne_pos
  have hle : unitsPerOne ≤ unitsOfCode code * 10 ^ 400 :=
    unitsPerOne_le.trans (Nat.le_mul_of_pos_left _ hpos)
  generalize unitsPerOne = one at *
  exact (Nat.div_pos hle hone).ne'

/-- The place of the point tells which powers of ten the magnitude reaches. -/
theorem ten_pow_mul_step_le_iff (hcode : code ≠ 0) {digits : Nat} {exponent : Int}
    (h : -400 ≤ digits + exponent) :
    10 ^ digits * Interval.step exponent ≤ (interval code).value * Interval.scale exponent ↔
      digits + exponent < pointOfCode code := by
  obtain ⟨places, hplaces⟩ := Int.eq_ofNat_of_zero_le (by omega : 0 ≤ digits + exponent + 400)
  have hpoint (length : Nat) : digits + exponent < (length : Int) - 400 ↔ places < length := by
    omega
  have hunits := unitsOfCode_mul_div_ne_zero hcode
  have hone := unitsPerOne_pos
  simp only [Interval.step_eq, Interval.scale, pointOfCode, Nat.pow_eq]
  generalize unitsPerOne = one at *
  generalize hshift : (400 : Nat) = shift at *
  rw [hpoint, ← ten_pow_le_iff_lt_length hunits, Nat.le_div_iff_mul_le hone]
  have hgrid : 10 ^ digits * (2 * (10 ^ exponent.toNat * one)) =
      2 * (one * 10 ^ (digits + exponent.toNat)) := by ring
  have hvalue : (interval code).value * 10 ^ (-exponent).toNat =
      2 * (unitsOfCode code * 10 ^ (-exponent).toNat) := Nat.mul_assoc ..
  rw [hgrid, hvalue, Nat.mul_le_mul_left_iff Nat.two_pos, Nat.mul_comm (10 ^ places)]
  exact mul_ten_pow_le_iff (by omega)

theorem neg_lt_pointOfCode (code : Nat) : -400 < pointOfCode code := by
  have hlength := List.length_pos_iff.mpr
    (Nat.toDigits_ne_nil (n := unitsOfCode code * Nat.pow 10 400 / unitsPerOne) (b := 10))
  rw [pointOfCode]
  omega

theorem exists_nearest?_eq_shortest (tie : Tie) (hcode : code ≠ 0) :
    ∃ digits ≤ 17,
      (interval code).nearest? tie (pointOfCode code - (digits : Nat)) =
        some (shortest tie code) := by
  have hlast : ∃ d, (interval code).nearest? tie (pointOfCode code - (17 : Nat)) = some d := by
    apply Interval.exists_nearest?_eq_some tie hcode
    have hwidth := Nat.mul_lt_mul_of_pos_right (unitsOfCode_lt_width hcode)
      (Interval.scale_pos (pointOfCode code - (17 : Nat)))
    have hpoint := neg_lt_pointOfCode code
    have hvalue : 10 ^ 16 * Interval.step (pointOfCode code - (17 : Nat)) ≤
        (interval code).value * Interval.scale (pointOfCode code - (17 : Nat)) :=
      (ten_pow_mul_step_le_iff hcode (by omega)).mpr (by omega)
    simp only [interval, Nat.add_mul, Nat.mul_assoc] at hwidth hvalue
    omega
  have hsome : ((List.range 18).findSome? fun (digits : Nat) =>
      (interval code).nearest? tie (pointOfCode code - digits)).isSome = true :=
    List.findSome?_isSome_iff.mpr ⟨17, by simp, Option.isSome_iff_exists.mpr hlast⟩
  obtain ⟨d, hd⟩ := Option.isSome_iff_exists.mp hsome
  obtain ⟨digits, hmem, hfound⟩ := List.exists_of_findSome?_eq_some hd
  rw [shortest, if_neg hcode, hd]
  exact ⟨digits, Nat.le_of_lt_succ (List.mem_range.mp hmem), hfound⟩

theorem contains_shortest (tie : Tie) (hcode : code ≠ 0) :
    (interval code).contains
      ((shortest tie code).coefficient * Interval.step (shortest tie code).exponent)
      (Interval.scale (shortest tie code).exponent) = true := by
  obtain ⟨digits, -, hfound⟩ := exists_nearest?_eq_shortest tie hcode
  obtain ⟨hexponent, hcontains, -⟩ := Interval.of_nearest?_eq_some hfound
  rwa [hexponent]

theorem shortest_coefficient_ne_zero (tie : Tie) (hcode : code ≠ 0) :
    (shortest tie code).coefficient ≠ 0 := by
  intro hzero
  have hlow := (contains_interval_iff.mp (contains_shortest tie hcode)).1.1
  have hpos := unitsOfCode_lt (Nat.pos_of_ne_zero hcode)
  have hproduct := Nat.mul_pos (show 0 < unitsOfCode (code - 1) + unitsOfCode code by omega)
    (Interval.scale_pos (shortest tie code).exponent)
  rw [hzero, Nat.zero_mul] at hlow
  omega

theorem shortest_coefficient_le (tie : Tie) (code : Nat) :
    (shortest tie code).coefficient ≤ 10 ^ 17 := by
  by_cases hcode : code = 0
  · rw [shortest, if_pos hcode]
    decide
  · obtain ⟨digits, hdigits, hfound⟩ := exists_nearest?_eq_shortest tie hcode
    obtain ⟨-, -, hle⟩ := Interval.of_nearest?_eq_some hfound
    have hpoint := neg_lt_pointOfCode code
    have hvalue : (interval code).value * Interval.scale (pointOfCode code - digits) <
        10 ^ digits * Interval.step (pointOfCode code - digits) :=
      Nat.lt_of_not_le fun hreach =>
        absurd ((ten_pow_mul_step_le_iff hcode (by omega)).mp hreach) (by omega)
    have hquotient := (Nat.div_lt_iff_lt_mul (Interval.step_pos _)).mpr hvalue
    exact hle.trans (hquotient.trans_le (Nat.pow_le_pow_right (by decide) hdigits))

end Point

theorem codeOfUnits_shortest (tie : Tie) (code : Nat) :
    codeOfUnits ((shortest tie code).coefficient * 10 ^ (shortest tie code).exponent.toNat *
      unitsPerOne) (10 ^ (-(shortest tie code).exponent).toNat) = code := by
  by_cases hcode : code = 0
  · rw [shortest, if_pos hcode, Nat.zero_mul, Nat.zero_mul, hcode]
    exact codeOfUnits_eq_zero (by decide)
  · have hcontains := contains_shortest tie hcode
    rw [Interval.step_eq, Nat.mul_left_comm, ← Nat.mul_assoc (shortest tie code).coefficient]
      at hcontains
    exact codeOfUnits_of_contains (Interval.scale_pos _) hcontains

/-- A finite number is the one that its shortest decimal is rounded to. -/
theorem ofDecimal_shortest (tie : Tie) (negative : Bool) {code : Fin (infinityCode + 1)}
    (h : code.val < infinityCode) :
    ofDecimal negative (shortest tie code).coefficient (shortest tie code).exponent =
      signed negative code := by
  rw [ofDecimal_eq_ofQuotient]
  refine congrArg (signed negative) (Fin.ext ?_)
  dsimp only
  rw [codeOfUnits_shortest, Nat.min_eq_right h.le]

end TableQuery.Binary64
