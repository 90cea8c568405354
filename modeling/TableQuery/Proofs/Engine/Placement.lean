import Mathlib.Data.List.Basic
import TableQuery.Proofs.Engine.Resolution
import TableQuery.Proofs.Keyed.Repeated

/-!
Where a condition may stand. A row that a join puts together shows the columns of its two
parts, and neither part can be taken for the other as long as the names of their tables
have no point. So it makes no difference whether two columns are compared while their rows
are put together or afterwards, and a condition that asks nothing of the joined tables may
as well be checked before there are any joins.
-/

namespace TableQuery

namespace Row

theorem get?_of_notMem {row : Row} {key : String} (h : key ∉ row.keys) : row.get? key = none :=
  Keyed.lookup_of_notMem h

theorem get?_merge (left right : Row) (key : String) :
    (left.merge right).get? key = (left.get? key).or (right.get? key) := by
  rw [merge_eq_beside]
  change (left.columns ++ right.columns.filter fun column => !left.contains column.1).lookup key = _
  rw [List.lookup_append, Keyed.lookup_filter fun key => !left.contains key]
  cases hleft : left.get? key with
  | some value =>
      rw [get?] at hleft
      rw [hleft, Option.some_or, Option.some_or]
  | none =>
      have hnew : left.contains key = false := by
        rw [contains, List.any_eq_false]
        intro column hcolumn
        have hne := List.lookup_eq_none_iff.mp hleft column hcolumn
        rw [decide_eq_true_eq]
        rintro rfl
        exact absurd rfl (bne_iff_ne.mp hne)
      rw [hnew]
      exact congrArg (Option.or · (right.get? key)) hleft

/-- A reference to another table passes over the columns of a joined row. -/
theorem get?_merge_of_ne {table other : String} (htable : '.' ∉ table.toList)
    (hother : '.' ∉ other.toList) (h : other ≠ table) (left row : Row) (column : String) :
    (left.merge (row.qualify table)).get? (qualifiedKey other column) =
      left.get? (qualifiedKey other column) := by
  rw [get?_merge, qualify_eq_qualified, get?_qualified htable hother, if_neg h, Option.or_none]

end Row

namespace Condition

variable {condition : Condition} {row other : Row}

theorem holds_congr (hleft : condition.left.resolve row = condition.left.resolve other)
    (hright : condition.right.resolve row = condition.right.resolve other) :
    condition.holds row = condition.holds other := by
  rw [holds, holds, hleft, hright]

/-- A condition that names no column of the joined table does not see its row. -/
theorem holds_merge {table : String} (htable : '.' ∉ table.toList)
    (h : ∀ ref ∈ condition.left.refs ++ condition.right.refs,
      '.' ∉ ref.table.toList ∧ ref.table ≠ table) (left row : Row) :
    condition.holds (left.merge (row.qualify table)) = condition.holds left := by
  have hresolve (operand : Operand) (hrefs : ∀ ref ∈ operand.refs,
      '.' ∉ ref.table.toList ∧ ref.table ≠ table) :
      operand.resolve (left.merge (row.qualify table)) = operand.resolve left := by
    cases operand with
    | literal value => rfl
    | field ref =>
        obtain ⟨hpoint, hne⟩ := hrefs ref (List.mem_singleton_self ref)
        exact Row.get?_merge_of_ne htable hpoint hne left row ref.column
  apply holds_congr
  · exact hresolve _ fun ref href => h ref (List.mem_append_left _ href)
  · exact hresolve _ fun ref href => h ref (List.mem_append_right _ href)

end Condition

namespace Table

variable {left right : Table} {leftKey rightKey : String} {condition : Condition}

/-- If the condition sees in a merged row what the join sees in its two parts, the join
may leave the comparison to it. -/
theorem joinOn_eq_restrict_pairs
    (h : ∀ l ∈ left, ∀ r ∈ right,
      equalCells (r.get? rightKey) (l.get? leftKey) = condition.holds (l.merge r)) :
    left.joinOn right leftKey rightKey =
      Table.restrict (left.flatMap fun l => right.map l.merge) (some condition) := by
  rw [joinOn, restrict, List.filter_flatMap]
  apply List.flatMap_congr
  intro l hl
  rw [List.filter_map]
  congr 1
  exact List.filter_congr (h l hl)

theorem joinOn_eq_pairs (hleft : ∀ l ∈ left, leftKey ∉ l.keys)
    (hright : ∀ r ∈ right, rightKey ∉ r.keys) :
    left.joinOn right leftKey rightKey = left.flatMap fun l => right.map l.merge := by
  rw [joinOn]
  apply List.flatMap_congr
  intro l hl
  congr 1
  rw [List.filter_eq_self]
  intro r hr
  rw [Row.get?_of_notMem (hleft l hl), Row.get?_of_notMem (hright r hr)]
  rfl

/-- A row that the condition drops would have been dropped from every pair it is in. -/
theorem joinOn_restrict
    (h : ∀ l ∈ left, ∀ r ∈ right, condition.holds (l.merge r) = condition.holds l) :
    (left.restrict (some condition)).joinOn right leftKey rightKey =
      (left.joinOn right leftKey rightKey).restrict (some condition) := by
  rw [joinOn, joinOn, restrict, restrict, flatMap_filter, List.filter_flatMap]
  apply List.flatMap_congr
  intro l hl
  rw [List.filter_map]
  have hpairs : ∀ r ∈ right.filter fun r => equalCells (r.get? rightKey) (l.get? leftKey),
      (condition.holds ∘ l.merge) r = condition.holds l :=
    fun r hr => h l hl r (List.mem_filter.mp hr).1
  by_cases hholds : condition.holds l = true
  · rw [if_pos hholds, List.filter_eq_self.mpr fun r hr => (hpairs r hr).trans hholds]
  · rw [if_neg hholds, List.filter_eq_nil_iff.mpr fun r hr => (hpairs r hr).symm ▸ hholds,
      List.map_nil]

theorem joinAll_restrict {tables : String → Table} {joins : List Join}
    (hpoints : ∀ join ∈ joins, '.' ∉ join.table.toList)
    (hrefs : ∀ ref ∈ condition.left.refs ++ condition.right.refs,
      '.' ∉ ref.table.toList ∧ ∀ join ∈ joins, ref.table ≠ join.table) :
    (left.restrict (some condition)).joinAll tables joins =
      (left.joinAll tables joins).restrict (some condition) := by
  induction joins generalizing left with
  | nil => rfl
  | cons join joins ih =>
      obtain ⟨hpoint, hpoints⟩ := List.forall_mem_cons.mp hpoints
      have hstep : (left.restrict (some condition)).joinOn
            ((tables join.table).qualify join.table) join.keys.1 join.keys.2 =
          (left.joinOn ((tables join.table).qualify join.table) join.keys.1
            join.keys.2).restrict (some condition) := by
        apply joinOn_restrict
        intro l _ r hr
        obtain ⟨row, -, rfl⟩ := List.mem_map.mp hr
        apply Condition.holds_merge hpoint
        intro ref href
        exact ⟨(hrefs ref href).1, (hrefs ref href).2 join List.mem_cons_self⟩
      rw [joinAll, List.foldl_cons, hstep, joinAll, List.foldl_cons]
      apply ih hpoints
      intro ref href
      obtain ⟨hpoint, hne⟩ := hrefs ref href
      exact ⟨hpoint, fun other hother => hne other (List.mem_cons_of_mem _ hother)⟩

end Table

namespace Engine

variable {σ : Type} [Store σ] {engine : Engine σ}

/-! ### Comparing in a join -/

/-- A join on two columns keeps what a condition on them keeps of all pairs of rows, and
it does not matter which of its sides is written first. All pairs of rows are what a join
on a column makes that no row has. -/
theorem join_eq_restrict_pairs {name : String} {stored left : Table} {a b z : FieldRef}
    (hstored : engine.getTable? name = some stored) (ha : '.' ∉ a.table.toList)
    (hb : '.' ∉ b.table.toList) (hjoined : b.table = name) (hother : a.table ≠ name)
    (hleft : ∀ row ∈ left, ∀ key ∈ row.keys, ¬(name ++ ".").toList <+: key.toList)
    (hz : ∀ row ∈ left ++ stored.qualify name, z.key ∉ row.keys) :
    let pairs := left.flatMap fun l => (stored.qualify name).map l.merge
    let condition : Condition := ⟨.field a, .equal, .field b⟩
    engine.join left ⟨name, z, z⟩ = .ok pairs ∧
      engine.join left ⟨name, a, b⟩ = .ok (Table.restrict pairs (some condition)) ∧
      engine.join left ⟨name, b, a⟩ = .ok (Table.restrict pairs (some condition)) := by
  subst hjoined
  intro pairs condition
  have hon : left.joinOn (stored.qualify b.table) a.key b.key =
      Table.restrict pairs (some condition) := by
    apply Table.joinOn_eq_restrict_pairs
    intro l hl r hr
    obtain ⟨row, -, rfl⟩ := List.mem_map.mp hr
    have hnew : b.key ∉ l.keys := by
      intro hkey
      apply hleft l hl b.key hkey
      rw [FieldRef.key, qualifiedKey, String.toList_append (s := b.table ++ ".")]
      exact List.prefix_append _ _
    have hvalue : (l.merge (row.qualify b.table)).get? a.key = l.get? a.key :=
      Row.get?_merge_of_ne hb ha hother l row a.column
    have hvalue' : (l.merge (row.qualify b.table)).get? b.key =
        (row.qualify b.table).get? b.key := by
      rw [Row.get?_merge, Row.get?_of_notMem hnew, Option.none_or]
    change _ = equalCells ((l.merge _).get? a.key) ((l.merge _).get? b.key)
    rw [hvalue, hvalue', equalCells_comm]
  refine ⟨?_, ?_, ?_⟩
  · have hkeys : Join.keys ⟨b.table, z, z⟩ = (z.key, z.key) := by
      rw [Join.keys, ite_self]
    obtain ⟨hzleft, hzright⟩ := List.forall_mem_append.mp hz
    rw [join_eq_ok hstored, hkeys, Table.joinOn_eq_pairs hzleft hzright]
  · rw [join_eq_ok hstored, ← hon, Join.keys, if_neg hother.symm]
  · rw [join_eq_ok hstored, ← hon, Join.keys, if_pos rfl]

/-- Nulls match, missing columns match, and NaN matches nothing. -/
theorem join_eq_restrict_pairs_ragged :
    let left : Table := [.ofPairs [("x.k", .null)], .ofPairs [("x.k", .number .nan)],
      .ofPairs [("y.k", .null)]]
    let stored : Table := [.ofPairs [("n", .null)], .ofPairs [("k", .number .nan)],
      .ofPairs [("k", .null)]]
    let run (first second : FieldRef) :=
      join ({ store := fun _ => some stored } : Engine (String → Option Table)) left
        ⟨"t", first, second⟩
    let joined : Table := [.ofPairs [("x.k", .null), ("t.k", .null)],
      .ofPairs [("y.k", .null), ("t.n", .null)]]
    run ⟨"x", "k"⟩ ⟨"t", "k"⟩ = .ok joined ∧ run ⟨"t", "k"⟩ ⟨"x", "k"⟩ = .ok joined := by
  intro left stored run joined
  obtain ⟨-, hon, hon'⟩ := @join_eq_restrict_pairs _ _
    ({ store := fun _ => some stored } : Engine (String → Option Table))
    "t" stored left ⟨"x", "k"⟩ ⟨"t", "k"⟩ ⟨"z", "z"⟩ rfl (by decide) (by decide) rfl (by decide)
    (by decide) (by decide)
  exact ⟨hon.trans (congrArg Except.ok (by decide)), hon'.trans (congrArg Except.ok (by decide))⟩

/-- A condition that names none of the joined tables may be checked before the joins,
however many there are. -/
theorem foldlM_join_restrict {joins : List Join} {condition : Condition} {left : Table}
    (hexist : ∀ join ∈ joins, engine.getTable? join.table ≠ none)
    (hpoints : ∀ join ∈ joins, '.' ∉ join.table.toList)
    (hrefs : ∀ ref ∈ condition.left.refs ++ condition.right.refs,
      '.' ∉ ref.table.toList ∧ ∀ join ∈ joins, ref.table ≠ join.table) :
    ∃ joined : Table,
      joins.foldlM engine.join left = .ok joined ∧
        joins.foldlM engine.join (left.restrict (some condition)) =
          .ok (joined.restrict (some condition)) := by
  have hstored : ∀ join ∈ joins, engine.getTable? join.table = some (engine.stored join.table) :=
    fun join hjoin => getTable?_eq_stored (hexist join hjoin)
  refine ⟨left.joinAll engine.stored joins, foldlM_join_eq_ok hstored left, ?_⟩
  rw [foldlM_join_eq_ok hstored, Table.joinAll_restrict hpoints hrefs]

/-- Two joined tables with a column `u.k` do not stand in for column `k` of table `u`. -/
theorem foldlM_join_restrict_pointed :
    let left : Table := [.ofPairs [("v.k", .null)], .ofPairs [("u.k", .null), ("v.k", .null)]]
    let joins : List Join := [⟨"a", ⟨"a", "k"⟩, ⟨"v", "k"⟩⟩, ⟨"b", ⟨"v", "k"⟩, ⟨"b", "k"⟩⟩]
    let condition : Condition := ⟨.field ⟨"u", "k"⟩, .equal, .literal .null⟩
    let engine : Engine (String → Option Table) :=
      { store := fun _ => some [.ofPairs [("u.k", .null), ("k", .null)]] }
    let joined : Table := [.ofPairs [("u.k", .null), ("v.k", .null), ("a.u.k", .null),
      ("a.k", .null), ("b.u.k", .null), ("b.k", .null)]]
    left.restrict (some condition) = [.ofPairs [("u.k", .null), ("v.k", .null)]] ∧
      joins.foldlM engine.join (left.restrict (some condition)) = .ok joined ∧
      (joins.foldlM engine.join left).map (fun rows : Table => rows.restrict (some condition)) =
        .ok joined := by
  intro left joins condition engine joined
  obtain ⟨rows, hrows, hrestricted⟩ := @foldlM_join_restrict _ _ engine joins condition left
    (fun _ _ => by simp [engine, getTable?, Store.table?]) (by decide) (by decide)
  have hjoined : joins.foldlM engine.join (left.restrict (some condition)) = .ok joined := by rfl
  refine ⟨by decide, hjoined, ?_⟩
  rw [hrows]
  exact hrestricted.symm.trans hjoined

end Engine

end TableQuery
