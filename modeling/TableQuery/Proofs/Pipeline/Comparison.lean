import Mathlib.Logic.ExistsUnique
import TableQuery.Proofs.Pipeline.Cells

/-!
How the six comparison operators fit together. Equality looks at the contents of two
cells and the other operators at their order, and the two agree wherever there is an
order: being equal is the same as comparing equal. So a comparison can be turned round,
and where two operands have comparable values exactly one of less, equal and greater
holds. Filters by these three then share the rows of a table out among them.
-/

namespace TableQuery

theorem Binary64.order?_swap (x y : Binary64) : x.order? y = (y.order? x).map Ordering.swap := by
  rw [order?, order?]
  cases x.rank? with
  | none => cases y.rank? <;> rfl
  | some a =>
      cases y.rank? with
      | none => rfl
      | some b => exact congrArg some Std.OrientedCmp.eq_swap

theorem Binary64.order?_eq_none_iff {x y : Binary64} :
    x.order? y = none ↔ x.isNaN = true ∨ y.isNaN = true := by
  cases x <;> cases y <;> simp [order?, rank?, isNaN]

namespace Value

variable {a b : Value}

theorem order?_swap (a b : Value) : a.order? b = (b.order? a).map Ordering.swap := by
  cases a <;> cases b
  case boolean.boolean => exact congrArg some Std.OrientedCmp.eq_swap
  case number.number x y => exact Binary64.order?_swap x y
  case string.string => exact congrArg some Std.OrientedCmp.eq_swap
  all_goals rfl

/-- Equality is what the order calls equal, also between values of different types. -/
theorem equals_eq_order? (a b : Value) : a.equals b = (a.order? b == some .eq) := by
  cases a <;> cases b
  case boolean.boolean a b => cases a <;> cases b <;> rfl
  case string.string s t =>
    rw [Bool.eq_iff_iff, equals, order?, beq_iff_eq, beq_iff_eq, Option.some.injEq,
      Std.compare_eq_iff_eq]
  all_goals rfl

/-- Two numbers, one of which is NaN. -/
def Unordered (a b : Value) : Prop :=
  a.kind = .number ∧ b.kind = .number ∧ (a.isNaN = true ∨ b.isNaN = true)

instance (a b : Value) : Decidable (a.Unordered b) :=
  inferInstanceAs (Decidable (_ ∧ _))

theorem order?_eq_none_iff : a.order? b = none ↔ a.Unordered b := by
  cases a <;> cases b
  case number.number x y => simp [order?, Unordered, kind, isNaN, Binary64.order?_eq_none_iff]
  all_goals simp [order?, Unordered, kind]

end Value

namespace CompareOp

def mirror : CompareOp → CompareOp
  | equal => equal
  | notEqual => notEqual
  | less => greater
  | greater => less
  | lessOrEqual => greaterOrEqual
  | greaterOrEqual => lessOrEqual

theorem holds_mirror (op : CompareOp) (order : Ordering) :
    op.mirror.holds order = op.holds order.swap := by
  cases op <;> cases order <;> rfl

end CompareOp

/-- The order of two operands in a row, if both have values and these have one. -/
def Operand.order? (left right : Operand) (row : Row) : Option Ordering :=
  (left.resolve row).bind fun a => (right.resolve row).bind fun b => a.order? b

theorem Operand.order?_swap (left right : Operand) (row : Row) :
    left.order? right row = (right.order? left row).map Ordering.swap := by
  rw [order?, order?]
  cases left.resolve row with
  | none => cases right.resolve row <;> rfl
  | some a =>
      cases right.resolve row with
      | none => rfl
      | some b => exact Value.order?_swap a b

namespace Condition

variable {left right : Operand} {row : Row}

theorem holds_notEqual (left right : Operand) (row : Row) :
    holds ⟨left, .notEqual, right⟩ row = !holds ⟨left, .equal, right⟩ row :=
  rfl

theorem holds_of_ne {op : CompareOp} (hequal : op ≠ .equal) (hnotEqual : op ≠ .notEqual) :
    holds ⟨left, op, right⟩ row = ((left.order? right row).map op.holds).getD false := by
  cases op
  case equal => exact absurd rfl hequal
  case notEqual => exact absurd rfl hnotEqual
  all_goals rfl

theorem holds_mirror (left right : Operand) (op : CompareOp) (row : Row) :
    holds ⟨left, op, right⟩ row = holds ⟨right, op.mirror, left⟩ row := by
  have hordering (op : CompareOp) (hequal : op ≠ .equal) (hnotEqual : op ≠ .notEqual)
      (hequal' : op.mirror ≠ .equal) (hnotEqual' : op.mirror ≠ .notEqual) :
      holds ⟨left, op, right⟩ row = holds ⟨right, op.mirror, left⟩ row := by
    have hswap : op.mirror.holds = op.holds ∘ Ordering.swap := funext op.holds_mirror
    rw [holds_of_ne hequal hnotEqual, holds_of_ne hequal' hnotEqual', Operand.order?_swap,
      Option.map_map, hswap]
  cases op
  case equal => exact equalCells_comm _ _
  case notEqual => exact congrArg not (equalCells_comm _ _)
  all_goals exact hordering _ (by decide) (by decide) (by decide) (by decide)

/-- Both operands have values in the row, and not two numbers of which one is NaN. -/
def Comparable (left right : Operand) (row : Row) : Prop :=
  ∃ a b, left.resolve row = some a ∧ right.resolve row = some b ∧ ¬a.Unordered b

theorem exists_order_of_comparable (h : Comparable left right row) :
    ∃ order, left.order? right row = some order := by
  obtain ⟨a, b, ha, hb, hordered⟩ := h
  rw [Operand.order?, ha, hb]
  exact Option.ne_none_iff_exists'.mp (mt Value.order?_eq_none_iff.mp hordered)

theorem holds_of_order {order : Ordering} (h : left.order? right row = some order)
    (op : CompareOp) : holds ⟨left, op, right⟩ row = op.holds order := by
  have hequal : holds ⟨left, .equal, right⟩ row = CompareOp.equal.holds order := by
    obtain ⟨a, ha, h⟩ := Option.bind_eq_some_iff.mp h
    obtain ⟨b, hb, h⟩ := Option.bind_eq_some_iff.mp h
    simp only [holds, ha, hb, equalCells, Value.equals_eq_order?, h]
    rfl
  cases op
  case equal => exact hequal
  case notEqual => rw [holds_notEqual, hequal]; rfl
  all_goals rw [holds_of_ne (by decide) (by decide), h]; rfl

theorem existsUnique_of_comparable (h : Comparable left right row) :
    ∃! op, op ∈ [CompareOp.less, .equal, .greater] ∧ holds ⟨left, op, right⟩ row = true := by
  obtain ⟨order, horder⟩ := exists_order_of_comparable h
  simp only [holds_of_order horder]
  cases order
  case lt => exact ⟨.less, by decide, by rintro (_ | _) <;> decide⟩
  case eq => exact ⟨.equal, by decide, by rintro (_ | _) <;> decide⟩
  case gt => exact ⟨.greater, by decide, by rintro (_ | _) <;> decide⟩

/-- An operator that allows equality holds where one of its two parts does. -/
theorem holds_orEqual_of_comparable (h : Comparable left right row) {weak strict : CompareOp}
    (hweak : ∀ order, weak.holds order = (strict.holds order || CompareOp.equal.holds order)) :
    holds ⟨left, weak, right⟩ row =
      (holds ⟨left, strict, right⟩ row || holds ⟨left, .equal, right⟩ row) := by
  obtain ⟨order, horder⟩ := exists_order_of_comparable h
  simp only [holds_of_order horder, hweak]

end Condition

namespace Table

variable {left right : Operand} {table : Table}

theorem filter_order_perm {α : Type} (order : α → Ordering) (l : List α) :
    (l.filter (order · == .lt) ++ l.filter (order · == .eq) ++ l.filter (order · == .gt)).Perm
      l := by
  have hnotLess (p q : Ordering → Bool) (hpq : ∀ o, (p o && !(o == .lt)) = q o) :
      (l.filter fun x => !(order x == .lt)).filter (fun x => p (order x)) =
        l.filter fun x => q (order x) := by
    rw [List.filter_filter]
    exact List.filter_congr fun x _ => hpq (order x)
  have hothers := List.filter_append_perm (order · == .eq) (l.filter fun x => !(order x == .lt))
  rw [hnotLess (· == .eq) (· == .eq) (by rintro (_ | _ | _) <;> rfl),
    hnotLess (!· == .eq) (· == .gt) (by rintro (_ | _ | _) <;> rfl)] at hothers
  rw [List.append_assoc]
  exact (hothers.append_left _).trans (List.filter_append_perm (order · == .lt) l)

theorem restrict_perm (h : ∀ row ∈ table, Condition.Comparable left right row) :
    (table.restrict (some ⟨left, .less, right⟩) ++ table.restrict (some ⟨left, .equal, right⟩) ++
      table.restrict (some ⟨left, .greater, right⟩)).Perm table := by
  have hfilter (op : CompareOp) : table.restrict (some ⟨left, op, right⟩) =
      table.filter fun row => op.holds ((left.order? right row).getD .eq) := by
    refine List.filter_congr fun row hrow => ?_
    obtain ⟨order, horder⟩ := Condition.exists_order_of_comparable (h row hrow)
    rw [Condition.holds_of_order horder, horder, Option.getD_some]
  rw [hfilter, hfilter, hfilter]
  exact filter_order_perm (fun row => (left.order? right row).getD .eq) table

end Table

/-- The operators of conditions fit together. Unequal is not equal, and a comparison can
be turned round. On a row where both operands have values that can be compared, exactly
one of less, equal and greater holds, and the operators that allow equality hold where
one of their two parts does. If all rows of a table are like this, the rows that are
less, equal and greater are three parts of the table without a common row, and every row
is in one of them. -/
theorem Condition.operators_coherent (left right : Operand) :
    (∀ row, holds ⟨left, .notEqual, right⟩ row = !holds ⟨left, .equal, right⟩ row) ∧
    (∀ op row, holds ⟨left, op, right⟩ row = holds ⟨right, op.mirror, left⟩ row) ∧
    (∀ row, Comparable left right row →
      (∃! op, op ∈ [CompareOp.less, .equal, .greater] ∧ holds ⟨left, op, right⟩ row = true) ∧
      holds ⟨left, .lessOrEqual, right⟩ row =
        (holds ⟨left, .less, right⟩ row || holds ⟨left, .equal, right⟩ row) ∧
      holds ⟨left, .greaterOrEqual, right⟩ row =
        (holds ⟨left, .greater, right⟩ row || holds ⟨left, .equal, right⟩ row)) ∧
    ∀ table : Table, (∀ row ∈ table, Comparable left right row) →
      let part op := table.restrict (some ⟨left, op, right⟩)
      (∀ op, (part op).Sublist table) ∧
      [CompareOp.less, .equal, .greater].Pairwise (fun p q => ∀ row ∈ part p, row ∉ part q) ∧
      (part .less ++ part .equal ++ part .greater).Perm table := by
  refine ⟨holds_notEqual left right, holds_mirror left right, fun row h => ?_, ?_⟩
  · refine ⟨existsUnique_of_comparable h, holds_orEqual_of_comparable h ?_,
      holds_orEqual_of_comparable h ?_⟩
    · intro order
      cases order <;> rfl
    · intro order
      cases order <;> rfl
  · intro table h part
    refine ⟨fun op => List.filter_sublist, ?_, Table.restrict_perm h⟩
    -- A row in two parts would have two operators.
    have hdisjoint {p q : CompareOp} (hp : p ∈ [CompareOp.less, .equal, .greater])
        (hq : q ∈ [CompareOp.less, .equal, .greater]) (hne : p ≠ q) :
        ∀ row ∈ part p, row ∉ part q := by
      intro row hrow hrow'
      obtain ⟨hmem, hholds⟩ := List.mem_filter.mp hrow
      exact hne ((existsUnique_of_comparable (h row hmem)).unique ⟨hp, hholds⟩
        ⟨hq, (List.mem_filter.mp hrow').2⟩)
    refine List.Pairwise.imp_of_mem (R := (· ≠ ·)) (fun hp hq hne => hdisjoint hp hq hne) ?_
    decide

/-- A string, a negative zero and a null compared with zero: types go before contents. -/
theorem Condition.operators_coherent_kinds :
    let left : Operand := .field ⟨"t", "a"⟩
    let right : Operand := .literal (.number .zero)
    let rows := [Value.string "x", .number (.signed true 0), .null].map fun v =>
      Row.ofPairs [("t.a", v)]
    let part op := Table.restrict rows (some ⟨left, op, right⟩)
    (∀ row ∈ rows, Comparable left right row ∧
      ∃! op, op ∈ [CompareOp.less, .equal, .greater] ∧ holds ⟨left, op, right⟩ row = true) ∧
    part .less ++ part .equal ++ part .greater = rows.reverse ∧
    (part .less ++ part .equal ++ part .greater).Perm rows := by
  intro left right rows part
  have hrow : ∀ row ∈ rows, Comparable left right row := by
    intro row hrow
    obtain ⟨v, hv, rfl⟩ := List.mem_map.mp hrow
    refine ⟨v, .number .zero, rfl, rfl, ?_⟩
    revert v
    decide
  obtain ⟨-, -, hone, hparts⟩ := operators_coherent left right
  exact ⟨fun row h => ⟨hrow row h, (hone row (hrow row h)).1⟩, by decide, (hparts rows hrow).2.2⟩

end TableQuery
