import TableQuery.Pipeline

/-!
When the cells that a join or a condition compares are equal. Being equal does
not depend on which side a cell is on, so a join may look at its two sides in
either order; but it is no equivalence, because of NaN.
-/

namespace TableQuery

theorem Binary64.equals_comm (x y : Binary64) : x.equals y = y.equals x := by
  rw [equals, equals, order?, order?]
  cases x.rank? with
  | none => cases y.rank? <;> rfl
  | some a =>
      cases y.rank? with
      | none => rfl
      | some b =>
          rw [Bool.eq_iff_iff]
          simp only [Option.bind_some, Option.map_some, beq_iff_eq, Option.some.injEq,
            Std.compare_eq_iff_eq]
          exact eq_comm

theorem Value.equals_comm (a b : Value) : a.equals b = b.equals a := by
  cases a <;> cases b <;> simp [equals, Bool.beq_comm, Binary64.equals_comm]

theorem equalCells_comm (a b : Option Value) : equalCells a b = equalCells b a := by
  cases a <;> cases b <;> simp [equalCells, Value.equals_comm]

theorem equalCells_none_iff {cell : Option Value} : equalCells none cell = true ↔ cell = none := by
  cases cell <;> simp [equalCells]

theorem equalCells_nan (cell : Option Value) :
    equalCells (some (.number .nan)) cell = false := by
  rcases cell with _ | (_ | _ | n | _) <;> rfl

end TableQuery
