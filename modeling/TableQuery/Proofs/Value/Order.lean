import TableQuery.Proofs.Binary64.Order
import TableQuery.Proofs.Pipeline.Comparison
import TableQuery.Proofs.Text.CodePoints

/-!
The order of values. Values of different types are ordered by their types, whatever their
contents are, and values of one type by their contents: numbers by their exact values and
strings by their code points. That makes a strict order in which equal values cannot be
told apart. Only NaN is outside, and only among the numbers; strings and the other types
are above or below it like any other number.
-/

namespace TableQuery

theorem Kind.rank_injective {k l : Kind} (h : k.rank = l.rank) : k = l := by
  cases k <;> cases l <;> trivial

namespace Value

variable {a b c : Value}

/-- The contents have no say between different types. -/
theorem order?_of_kind_ne (h : a.kind ≠ b.kind) :
    a.order? b = some (compare a.kind.rank b.kind.rank) := by
  cases a <;> cases b
  case null.null => exact absurd rfl h
  case boolean.boolean => exact absurd rfl h
  case number.number => exact absurd rfl h
  case string.string => exact absurd rfl h
  all_goals rfl

theorem order?_lt_of_kinds :
    [Kind.null, .boolean, .number, .string].Pairwise fun k l =>
      ∀ a b : Value, a.kind = k → b.kind = l → a.order? b = some .lt := by
  have hranks : [Kind.null, .boolean, .number, .string].Pairwise fun k l => k.rank < l.rank := by
    decide
  refine hranks.imp ?_
  rintro _ _ hrank a b rfl rfl
  have hkind : a.kind ≠ b.kind := fun hkind => Nat.ne_of_lt hrank (congrArg Kind.rank hkind)
  rw [order?_of_kind_ne hkind, Nat.compare_eq_lt.mpr hrank]

theorem rank_le_of_order? (h : a.order? b = some .lt) : a.kind.rank ≤ b.kind.rank := by
  by_cases hkind : a.kind = b.kind
  · rw [hkind]
  · rw [order?_of_kind_ne hkind, Option.some.injEq, Nat.compare_eq_lt] at h
    exact Nat.le_of_lt h

theorem order?_self (a : Value) : a.order? a ≠ some .lt := by
  intro h
  have hswap := order?_swap a a
  rw [h] at hswap
  cases hswap

theorem order?_eq_gt_iff : a.order? b = some .gt ↔ b.order? a = some .lt := by
  rw [order?_swap a b]
  rcases b.order? a with _ | order
  · simp
  · cases order <;> simp

theorem order?_lt_trans_of_kind (hab : a.kind = b.kind) (hbc : b.kind = c.kind)
    (h : a.order? b = some .lt) (h' : b.order? c = some .lt) : a.order? c = some .lt := by
  match a, b, c, hab, hbc with
  | null, null, null, _, _ => exact h
  | boolean _, boolean _, boolean _, _, _ =>
      exact congrArg some (Std.TransCmp.lt_trans (Option.some.inj h) (Option.some.inj h'))
  | number _, number _, number _, _, _ => exact Binary64.order?_lt_trans h h'
  | string _, string _, string _, _, _ =>
      exact congrArg some (Std.TransCmp.lt_trans (Option.some.inj h) (Option.some.inj h'))

/-- The types of the outer two decide, unless all three values are of one type. -/
theorem order?_lt_trans (h : a.order? b = some .lt) (h' : b.order? c = some .lt) :
    a.order? c = some .lt := by
  have hab := rank_le_of_order? h
  have hbc := rank_le_of_order? h'
  by_cases hkind : a.kind = c.kind
  · rw [hkind] at hab
    have hb : b.kind = c.kind := Kind.rank_injective (Nat.le_antisymm hbc hab)
    exact order?_lt_trans_of_kind (hkind.trans hb.symm) hb h h'
  · have hrank : a.kind.rank ≠ c.kind.rank := fun hrank => hkind (Kind.rank_injective hrank)
    rw [order?_of_kind_ne hkind, Option.some.injEq, Nat.compare_eq_lt]
    omega

theorem order?_eq_eq_iff : a.order? b = some .eq ↔ a.equals b = true := by
  rw [equals_eq_order?, beq_iff_eq]

/-- Equal values compare alike with all others. -/
theorem order?_congr (h : a.equals b = true) (c : Value) : a.order? c = b.order? c := by
  cases a <;> cases b
  case null.null => rfl
  case boolean.boolean => rw [beq_iff_eq.mp h]
  case number.number x y =>
    cases c with
    | number z => exact Binary64.order?_congr h z
    | _ => rfl
  case string.string => rw [beq_iff_eq.mp h]
  all_goals cases h

theorem order?_eq_trans (h : a.order? b = some .eq) (h' : b.order? c = some .eq) :
    a.order? c = some .eq := by
  rw [order?_congr (order?_eq_eq_iff.mp h), h']

theorem count_order_of_not_unordered (h : ¬a.Unordered b) :
    [a.order? b == some .lt, a.equals b, a.order? b == some .gt].count true = 1 := by
  obtain ⟨order, horder⟩ := Option.ne_none_iff_exists'.mp (mt order?_eq_none_iff.mp h)
  rw [equals_eq_order?, horder]
  cases order <;> rfl

theorem order?_string (s t : String) :
    (string s).order? (string t) = some (compare (Text.codePoints s) (Text.codePoints t)) ∧
      (string s).order? (string t) =
        some (compare s.toByteArray.data.toList t.toByteArray.data.toList) := by
  obtain ⟨hcodePoints, hbytes⟩ := Text.compare_string s t
  exact ⟨congrArg some hcodePoints, congrArg some hbytes⟩

/-- Values are strictly ordered, with equality as the third way to compare. Exactly one
of less, equal and greater holds of two values unless one is NaN, and two numbers one of
which is NaN are the only values that do not compare. The types come first, in a fixed
sequence; finite numbers go by their exact values, between the two infinities, and strings
by their code points, which is to say by their bytes. -/
theorem order?_strict_and_total :
    (∀ a : Value, a.order? a ≠ some .lt) ∧
    (∀ a b c : Value, a.order? b = some .lt → b.order? c = some .lt → a.order? c = some .lt) ∧
    (∀ a b : Value, a.order? b = some .gt ↔ b.order? a = some .lt) ∧
    (∀ a b : Value, a.order? b = some .eq ↔ a.equals b = true) ∧
    (∀ a b : Value, a.isNaN = false → b.isNaN = false →
      [a.order? b == some .lt, a.equals b, a.order? b == some .gt].count true = 1) ∧
    (∀ a b c : Value, a.order? b = some .eq → b.order? c = some .eq → a.order? c = some .eq) ∧
    (∀ a b : Value, a.order? b = none ↔ a.Unordered b) ∧
    ([Kind.null, .boolean, .number, .string].Pairwise fun k l =>
      ∀ a b : Value, a.kind = k → b.kind = l → a.order? b = some .lt) ∧
    (∀ (x y : Binary64) (v w : ℚ), x.value? = some v → y.value? = some w →
      (number x).order? (number y) = some (compare v w) ∧
        (number (.signed true (Fin.last infinityCode))).order? (number x) = some .lt ∧
        (number x).order? (number (.signed false (Fin.last infinityCode))) = some .lt) ∧
    ∀ s t : String,
      (string s).order? (string t) = some (compare (Text.codePoints s) (Text.codePoints t)) ∧
        (string s).order? (string t) =
          some (compare s.toByteArray.data.toList t.toByteArray.data.toList) := by
  refine ⟨order?_self, fun _ _ _ => order?_lt_trans, fun _ _ => order?_eq_gt_iff,
    fun _ _ => order?_eq_eq_iff, ?_, fun _ _ _ => order?_eq_trans,
    fun _ _ => order?_eq_none_iff, order?_lt_of_kinds, ?_, order?_string⟩
  · intro a b ha hb
    apply count_order_of_not_unordered
    rintro ⟨-, -, hnan⟩
    simp [ha, hb] at hnan
  · intro x y v w hx hy
    obtain ⟨hlow, hhigh⟩ := Binary64.order?_infinity hx
    exact ⟨Binary64.order?_eq_compare_value hx hy, hlow, hhigh⟩

/-- NaN is above true and below every string, the zeros are equal, and a character outside
the basic plane is above one inside. -/
theorem order?_strict_and_total_samples :
    let nan : Value := number .nan
    let zero (negative : Bool) : Value := number (.signed negative 0)
    (boolean true).order? nan = some .lt ∧ nan.order? (string "") = some .lt ∧
      (boolean true).order? (string "") = some .lt ∧
      [(zero true).order? (zero false) == some .lt, (zero true).equals (zero false),
        (zero true).order? (zero false) == some .gt].count true = 1 ∧
      (zero true).order? (zero false) = some .eq ∧
      (string "\uff5e").order? (string "😀") = some .lt := by
  intro nan zero
  obtain ⟨-, htrans, -, hequal, hone, -, -, -, -, hstrings⟩ := order?_strict_and_total
  have hlow : (boolean true).order? nan = some .lt := by decide
  have hhigh : nan.order? (string "") = some .lt := by decide
  refine ⟨hlow, hhigh, htrans _ _ _ hlow hhigh, hone _ _ rfl rfl, (hequal _ _).mpr (by decide), ?_⟩
  rw [(hstrings _ _).1]
  decide

end Value

end TableQuery
