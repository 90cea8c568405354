import TableQuery.Proofs.Value.Order

/-!
Ordering conditions on cells that have no place in the order. A missing cell satisfies
none of them. NaN satisfies none against another number; against a value of another type
it is a number like any other, because types are compared before contents.
-/

namespace TableQuery

/-- The operand has no value in the row, or NaN. -/
def Operand.MissingOrNaN (operand : Operand) (row : Row) : Prop :=
  operand.resolve row = none ∨ operand.resolve row = some (.number .nan)

theorem Value.order?_nan_of_kind_eq {a b : Value} (hkind : a.kind = b.kind)
    (h : a = .number .nan ∨ b = .number .nan) : a.order? b = none := by
  rw [order?_eq_none_iff]
  rcases h with rfl | rfl
  · exact ⟨rfl, hkind.symm, .inl rfl⟩
  · exact ⟨hkind, rfl, .inr rfl⟩

/-- An ordering operator does not hold if one of its operands is missing or NaN, whatever
the other one is, unless both have values and these are of different types. The operator
then holds just as it does of the two types. -/
theorem Condition.ordering_of_missing_or_nan {condition : Condition} {row : Row}
    (hop : condition.operator ∈ [CompareOp.less, .greater, .lessOrEqual, .greaterOrEqual])
    (h : condition.left.MissingOrNaN row ∨ condition.right.MissingOrNaN row) :
    condition.holds row = true ↔
      ∃ a b, condition.left.resolve row = some a ∧ condition.right.resolve row = some b ∧
        a.kind ≠ b.kind ∧ condition.operator.holds (compare a.kind.rank b.kind.rank) = true := by
  obtain ⟨left, op, right⟩ := condition
  have hequal : op ≠ .equal := by
    rintro rfl
    simp at hop
  have hnotEqual : op ≠ .notEqual := by
    rintro rfl
    simp at hop
  rw [holds_of_ne hequal hnotEqual, Operand.order?]
  simp only [Operand.MissingOrNaN] at h
  cases hleft : left.resolve row with
  | none => simp
  | some a =>
      cases hright : right.resolve row with
      | none => simp
      | some b =>
          by_cases hkind : a.kind = b.kind
          · have hnan : a = .number .nan ∨ b = .number .nan := by
              simpa [hleft, hright] using h
            simp [Value.order?_nan_of_kind_eq hkind hnan, hkind]
          · simp [Value.order?_of_kind_ne hkind, hkind]

/-- Between NaN and a null the types decide; against a number, and if the column is
missing, nothing holds. -/
theorem Condition.ordering_of_nan_and_missing :
    let row := Row.ofPairs [("t.x", .number .nan), ("t.y", .null)]
    let x : Operand := .field ⟨"t", "x"⟩
    holds ⟨x, .greater, .field ⟨"t", "y"⟩⟩ row = true ∧
      holds ⟨.literal (.number .zero), .lessOrEqual, x⟩ row = false ∧
      holds ⟨x, .less, .field ⟨"t", "z"⟩⟩ row = false := by
  intro row x
  have hnan : x.MissingOrNaN row := .inr (by decide)
  refine ⟨?_, ?_, ?_⟩
  · rw [ordering_of_missing_or_nan (by decide) (.inl hnan)]
    exact ⟨.number .nan, .null, by decide, by decide, by decide, by decide⟩
  · rw [← Bool.not_eq_true, ordering_of_missing_or_nan (by decide) (.inr hnan)]
    rintro ⟨a, b, ha, hb, hkind, -⟩
    obtain rfl : Value.number .zero = a := Option.some.inj ha
    obtain rfl : Value.number .nan = b := Option.some.inj hb
    exact hkind rfl
  · rw [← Bool.not_eq_true, ordering_of_missing_or_nan (by decide) (.inl hnan)]
    rintro ⟨a, b, -, hb, -⟩
    cases hb

/-- NaN in a column is less than a string. -/
theorem Condition.nan_less_than_string :
    let row := Row.ofPairs [("t.x", .number .nan)]
    let x : Operand := .field ⟨"t", "x"⟩
    x.MissingOrNaN row ∧ holds ⟨x, .less, .literal (.string "a")⟩ row = true := by
  intro row x
  exact ⟨.inr (by decide), by decide⟩

end TableQuery
