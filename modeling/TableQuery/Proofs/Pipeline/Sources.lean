import Mathlib.Algebra.Order.Ring.Int
import TableQuery.Proofs.Pipeline.Meaning
import TableQuery.Proofs.Query.Parse

/-!
Where the columns of a joined row come from. The key of a column is the name of
its table, a point and its own name, and such keys can coincide: a table may hold
a column whose name has a point in it. They do not coincide for the tables of a
query that was read, because the names of tables that can be written down have no
point. So the rows of distinct tables lie side by side without touching, and a
reference finds the column that it names.
-/

namespace TableQuery

/-- The first point of a key ends the name of the table. -/
theorem qualifiedKey_inj {t u a b : String} (ht : '.' ∉ t.toList) (hu : '.' ∉ u.toList)
    (h : qualifiedKey t a = qualifiedKey u b) : t = u ∧ a = b := by
  have hlist := congrArg String.toList h
  simp only [qualifiedKey, String.toList_append] at hlist
  have hpointless (name : String) (hname : '.' ∉ name.toList) :
      ∀ c ∈ name.toList, (c != '.') = true := by
    intro c hc
    rw [bne_iff_ne]
    rintro rfl
    exact hname hc
  have hstops (name : String) : Text.Stops (· != '.') (".".toList ++ name.toList) := rfl
  obtain ⟨htable, -⟩ := Text.run_unique (hpointless t ht) (hstops a) (hpointless u hu) (hstops b)
    (by simpa only [List.append_assoc] using hlist)
  obtain rfl : t = u := String.toList_inj.mp htable
  exact ⟨rfl, Row.qualifiedKey_injective h⟩

namespace Row

theorem keys_qualified (table : String) (row : Row) :
    (row.qualified table).keys = row.keys.map (qualifiedKey table) := by
  simp [keys, Keyed.keys, qualified]

theorem columns_beside {left right : Row} (h : ∀ key ∈ right.keys, key ∉ left.keys) :
    (left.beside right).columns = left.columns ++ right.columns := by
  have hfilter : right.columns.filter (fun column => !left.contains column.1) = right.columns := by
    apply List.filter_eq_self.mpr
    intro column hcolumn
    have hkey := h column.1 (List.mem_map_of_mem hcolumn)
    simpa [← contains_iff] using hkey
  change left.columns ++ _ = _
  rw [hfilter]

theorem columns_foldl_beside {first : Row} {others : List Row}
    (h : (first :: others).Pairwise fun a b => ∀ key ∈ b.keys, key ∉ a.keys) :
    (others.foldl beside first).columns = first.columns ++ others.flatMap columns := by
  induction others generalizing first with
  | nil => simp
  | cons second others ih =>
      obtain ⟨hfirst, hothers⟩ := List.pairwise_cons.mp h
      obtain ⟨hsecond, hrest⟩ := List.pairwise_cons.mp hothers
      have hcolumns : (first.beside second).columns = first.columns ++ second.columns :=
        columns_beside (hfirst second (by simp))
      have hkeys : (first.beside second).keys = first.keys ++ second.keys := by
        rw [keys, hcolumns, Keyed.keys, List.map_append]
        rfl
      rw [List.foldl_cons, ih, hcolumns, List.flatMap_cons, List.append_assoc]
      refine List.pairwise_cons.mpr ⟨?_, hrest⟩
      intro row hrow key hkey
      rw [hkeys, List.mem_append, not_or]
      exact ⟨hfirst row (List.mem_cons_of_mem _ hrow) key hkey, hsecond row hrow key hkey⟩

theorem get?_qualified {table other : String} (htable : '.' ∉ table.toList)
    (hother : '.' ∉ other.toList) (row : Row) (column : String) :
    (row.qualified table).get? (qualifiedKey other column) =
      if other = table then row.get? column else none := by
  simp only [get?, qualified]
  induction row.columns with
  | nil => simp
  | cons entry columns ih =>
      obtain ⟨name, value⟩ := entry
      rw [List.map_cons, List.lookup_cons, List.lookup_cons, ih]
      by_cases h : other = table
      · subst h
        have hkey : (qualifiedKey other column == qualifiedKey other name) = (column == name) := by
          rw [Bool.eq_iff_iff, beq_iff_eq, beq_iff_eq]
          exact ⟨qualifiedKey_injective, congrArg _⟩
        rw [hkey, if_pos rfl, if_pos rfl]
      · have hkey : (qualifiedKey other column == qualifiedKey table name) = false :=
          beq_eq_false_iff_ne.mpr fun e => h (qualifiedKey_inj hother htable e).1
        rw [hkey, if_neg h, if_neg h]

end Row

/-- The columns of one row from each table, each under the name of its table, the
rows one after the other. -/
def sourceColumns (names : List String) (rows : List Row) : List (String × Value) :=
  (names.zip rows).flatMap fun (name, row) => (row.qualified name).columns

section Names

variable {names : List String} {rows : List Row}

theorem pairwise_qualified (hpoints : ∀ name ∈ names, '.' ∉ name.toList)
    (hdistinct : names.Nodup) (rows : List Row) :
    (List.zipWith Row.qualified names rows).Pairwise
      fun a b => ∀ key ∈ b.keys, key ∉ a.keys := by
  induction names generalizing rows with
  | nil => simp
  | cons name names ih =>
      cases rows with
      | nil => simp
      | cons row rows =>
          obtain ⟨hname, hrest⟩ := List.nodup_cons.mp hdistinct
          obtain ⟨hpoint, hpoints⟩ := List.forall_mem_cons.mp hpoints
          refine List.pairwise_cons.mpr ⟨?_, ih hpoints hrest rows⟩
          intro later hlater key hkey hmem
          rw [← List.map_uncurry_zip_eq_zipWith] at hlater
          obtain ⟨⟨other, source⟩, hpair, rfl⟩ := List.mem_map.mp hlater
          have hother : other ∈ names := (List.of_mem_zip hpair).1
          simp only [Function.uncurry_apply_pair, Row.keys_qualified, List.mem_map] at hkey hmem
          obtain ⟨a, -, rfl⟩ := hkey
          obtain ⟨b, -, h⟩ := hmem
          obtain ⟨rfl, -⟩ := qualifiedKey_inj hpoint (hpoints other hother) h
          exact hname hother

/-- Rows of distinct tables lie side by side, none of their columns lost or
overwritten. -/
theorem columns_mergedRow (hpoints : ∀ name ∈ names, '.' ∉ name.toList)
    (hdistinct : names.Nodup) (hlength : rows.length = names.length) :
    (mergedRow (List.zipWith Row.qualified names rows) (names.length - 1)).columns =
      sourceColumns names rows := by
  cases names with
  | nil => simp [mergedRow, sourceColumns, Row.empty]
  | cons name names =>
      cases rows with
      | nil => simp at hlength
      | cons row rows =>
          have hrest : rows.length = names.length := by simpa using hlength
          have hcount : (List.zipWith Row.qualified names rows).length = names.length := by
            rw [List.length_zipWith, hrest, Nat.min_self]
          have hpairwise := pairwise_qualified hpoints hdistinct (row :: rows)
          rw [List.zipWith_cons_cons] at hpairwise ⊢
          rw [mergedRow, List.length_cons, Nat.add_sub_cancel, ← hcount, List.take_length,
            Row.columns_foldl_beside hpairwise, sourceColumns, List.zip_cons_cons,
            List.flatMap_cons, ← List.map_uncurry_zip_eq_zipWith, List.flatMap_map]
          rfl

theorem length_sourceColumns (hlength : rows.length = names.length) :
    (sourceColumns names rows).length = (rows.map Row.size).sum := by
  induction names generalizing rows with
  | nil => simp [sourceColumns, List.eq_nil_of_length_eq_zero hlength]
  | cons name names ih =>
      cases rows with
      | nil => simp at hlength
      | cons row rows =>
          have hrest : rows.length = names.length := by simpa using hlength
          rw [sourceColumns, List.zip_cons_cons, List.flatMap_cons, List.length_append,
            ← sourceColumns, ih hrest, List.map_cons, List.sum_cons]
          simp [Row.qualified, Row.size]

/-- A key is looked up among the columns of all tables as its column is in the row
of its own table. -/
theorem lookup_sourceColumns (hpoints : ∀ name ∈ names, '.' ∉ name.toList)
    (hdistinct : names.Nodup) {table column : String} (htable : '.' ∉ table.toList) :
    (sourceColumns names rows).lookup (qualifiedKey table column) =
      ((names.zip rows).lookup table).bind fun row => row.get? column := by
  induction names generalizing rows with
  | nil => rfl
  | cons name names ih =>
      cases rows with
      | nil => rfl
      | cons row rows =>
          obtain ⟨hname, hrest⟩ := List.nodup_cons.mp hdistinct
          obtain ⟨hpoint, hpoints⟩ := List.forall_mem_cons.mp hpoints
          have hrow := Row.get?_qualified hpoint htable row column
          rw [Row.get?] at hrow
          rw [sourceColumns, List.zip_cons_cons, List.flatMap_cons, List.lookup_append, hrow,
            ← sourceColumns, ih hpoints hrest, List.lookup_cons]
          by_cases h : table = name
          · subst h
            have hlater : (names.zip rows).lookup table = none := by
              rw [List.lookup_eq_none_iff]
              rintro ⟨other, source⟩ hpair
              have hmem : other ∈ names := (List.of_mem_zip hpair).1
              have hne : table ≠ other := by
                rintro rfl
                exact hname hmem
              simpa using hne
            simp [hlater]
          · have hne : (table == name) = false := beq_eq_false_iff_ne.mpr h
            simp [h, hne]

end Names

end TableQuery
