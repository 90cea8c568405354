import Mathlib.Data.List.Forall2
import TableQuery.Proofs.Engine.Missing
import TableQuery.Proofs.Pipeline.Sources

/-!
What the rows are like on which a query that was read is filtered and selected.
If its tables are distinct, each row is made of one row from every table, column
by column and in the order of the clauses, and a reference `x.y` finds column `y`
of the row that came from table `x`.
-/

namespace TableQuery

def FieldList.refs : FieldList → List FieldRef
  | .wildcard => []
  | .fields refs => refs

def Operand.refs : Operand → List FieldRef
  | .field ref => [ref]
  | .literal _ => []

namespace Query

variable {query : Query}

/-- The columns that the selection and the condition look up in the joined rows. -/
def refs (query : Query) : List FieldRef :=
  query.select.fields.refs ++
    query.condition.toList.flatMap fun condition => condition.left.refs ++ condition.right.refs

theorem mem_names_of_mem_operand_refs {operand : Operand} {ref : FieldRef}
    (h : ref ∈ operand.refs) : ref.table ∈ operand.names := by
  cases operand with
  | field other =>
      obtain rfl : ref = other := List.mem_singleton.mp h
      simp [Operand.names, FieldRef.names]
  | literal value => simp [Operand.refs] at h

theorem mem_names_of_mem_refs {ref : FieldRef} (h : ref ∈ query.refs) :
    ref.table ∈ query.names := by
  rw [names, List.mem_append, List.mem_append]
  rcases List.mem_append.mp h with h | h
  · refine .inl (.inl ?_)
    cases hfields : query.select.fields with
    | wildcard => simp [hfields, FieldList.refs] at h
    | fields refs =>
        rw [hfields] at h
        exact List.mem_flatMap.mpr ⟨ref, h, by simp [FieldRef.names]⟩
  · refine .inr ?_
    obtain ⟨condition, hcondition, hmem⟩ := List.mem_flatMap.mp h
    refine List.mem_flatMap.mpr ⟨condition, hcondition, ?_⟩
    rw [Condition.names, List.mem_append]
    exact (List.mem_append.mp hmem).imp mem_names_of_mem_operand_refs mem_names_of_mem_operand_refs

theorem mem_names_of_mem_tableNames {name : String} (h : name ∈ query.tableNames) :
    name ∈ query.names := by
  rw [names, List.mem_append]
  refine .inl (List.mem_append.mpr (.inr ?_))
  rcases List.mem_cons.mp h with rfl | h
  · exact List.mem_cons_self
  · obtain ⟨join, hjoin, rfl⟩ := List.mem_map.mp h
    refine List.mem_cons_of_mem _ (List.mem_flatMap.mpr ⟨join, hjoin, ?_⟩)
    simp [Join.names]

/-- In a query that was read, the names of tables have no point in them. -/
theorem point_notMem_of_parse {text : String} {name : String} (hparse : parse text = .ok query)
    (h : name ∈ query.names) : '.' ∉ name.toList :=
  point_notMem_of_isName ((parse_eq_ok_iff.mp hparse).2.names name h)

/-- The tuples of stored rows, one from every table, that the joins put together. -/
def contributions (query : Query) (tables : String → Table) : List (List Row) :=
  (rowTuples (query.tableNames.map tables)).filter fun rows =>
    Matches query.joins (List.zipWith Row.qualified query.tableNames rows)

/-- A row that is made of stored rows, one from every table of a query. -/
structure MadeOf (query : Query) (row : Row) (rows : List Row) : Prop where
  keys : row.keys = (query.tableNames.zip rows).flatMap fun (name, source) =>
    source.keys.map (qualifiedKey name)
  columns : row.columns = sourceColumns query.tableNames rows
  size : row.size = (rows.map Row.size).sum
  get? : ∀ ref ∈ query.refs, row.get? ref.key =
    ((query.tableNames.zip rows).lookup ref.table).bind fun source => source.get? ref.column

end Query

theorem rowTuples_qualified (tables : String → Table) (names : List String) :
    rowTuples (names.map (qualifiedTable tables)) =
      (rowTuples (names.map tables)).map (List.zipWith Row.qualified names) := by
  induction names with
  | nil => rfl
  | cons name names ih =>
      rw [List.map_cons, rowTuples, ih, qualifiedTable, List.flatMap_map, List.map_cons, rowTuples,
        List.map_flatMap]
      congr 1
      funext row
      rw [List.map_map, List.map_map]
      rfl

theorem length_of_mem_rowTuples {sources : List Table} {rows : List Row}
    (h : rows ∈ rowTuples sources) : rows.length = sources.length := by
  induction sources generalizing rows with
  | nil => simp [List.mem_singleton.mp h]
  | cons source sources ih =>
      simp only [rowTuples, List.mem_flatMap, List.mem_map] at h
      obtain ⟨row, -, rest, hrest, rfl⟩ := h
      rw [List.length_cons, List.length_cons, ih hrest]

theorem joinAll_eq_contributions (tables : String → Table) (query : Query) :
    ((tables query.select.source).qualify query.select.source).joinAll tables query.joins =
      (query.contributions tables).map fun rows =>
        mergedRow (List.zipWith Row.qualified query.tableNames rows) query.joins.length := by
  rw [joinAll_source_eq, rowTuples_qualified, List.filter_map, List.map_map, Query.contributions]
  rfl

theorem Query.madeOf_mergedRow {query : Query} {rows : List Row}
    (hpoints : ∀ name ∈ query.tableNames, '.' ∉ name.toList) (hdistinct : query.tableNames.Nodup)
    (hrefs : ∀ ref ∈ query.refs, '.' ∉ ref.table.toList)
    (hlength : rows.length = query.tableNames.length) :
    query.MadeOf (mergedRow (List.zipWith Row.qualified query.tableNames rows) query.joins.length)
      rows := by
  have hcount : query.tableNames.length - 1 = query.joins.length := by simp [tableNames]
  have hcolumns := columns_mergedRow hpoints hdistinct hlength
  rw [hcount] at hcolumns
  refine ⟨?_, hcolumns, ?_, ?_⟩
  · rw [Row.keys, hcolumns, Keyed.keys, sourceColumns, List.map_flatMap]
    congr 1
    funext source
    exact Row.keys_qualified source.1 source.2
  · rw [Row.size, hcolumns, length_sourceColumns hlength]
  · intro ref href
    rw [Row.get?, hcolumns]
    exact lookup_sourceColumns hpoints hdistinct (hrefs ref href)

namespace Engine

variable {σ : Type} [Store σ] {engine : Engine σ} {tables : String → Table}

/-- The columns of distinct tables stay apart in the joined rows, and a query that
was read finds there the columns that it names. -/
theorem joined_rows_resolve {text : String} {query : Query} (hparse : Query.parse text = .ok query)
    (hdistinct : query.tableNames.Nodup)
    (htables : ∀ name ∈ query.tableNames, engine.getTable? name = some (tables name)) :
    ∃ joined : Table,
      (do let projected ← engine.project query.select.source
          query.joins.foldlM engine.join projected) = .ok joined ∧
        engine.executeQuery query =
          .ok ((joined.restrict query.condition).select query.select.fields) ∧
        List.Forall₂ query.MadeOf joined (query.contributions tables) := by
  have hpoints : ∀ name ∈ query.tableNames, '.' ∉ name.toList := fun name hname =>
    Query.point_notMem_of_parse hparse (Query.mem_names_of_mem_tableNames hname)
  have hrefs : ∀ ref ∈ query.refs, '.' ∉ ref.table.toList := fun ref href =>
    Query.point_notMem_of_parse hparse (Query.mem_names_of_mem_refs href)
  have hjoined := joined_eq_ok htables
  refine ⟨_, hjoined, ?_, ?_⟩
  · rw [executeQuery_eq_joined, hjoined]
    rfl
  · rw [joinAll_eq_contributions, List.forall₂_map_left_iff, List.forall₂_same]
    intro rows hrows
    apply Query.madeOf_mergedRow hpoints hdistinct hrefs
    rw [length_of_mem_rowTuples (List.mem_filter.mp hrows).1, List.length_map]

/-- Column `b.k` of table `a` is not taken for column `k` of table `b`. -/
theorem joined_rows_pointed_column :
    let tables : String → Table := fun name =>
      if name = "a" then [.ofPairs [("b.k", .null), ("k", .boolean true)], .ofPairs []]
      else [.ofPairs [("k", .boolean true)]]
    let query : Query := ⟨⟨.wildcard, "a"⟩, [⟨"b", ⟨"a", "k"⟩, ⟨"b", "k"⟩⟩],
      some ⟨.field ⟨"b", "k"⟩, .equal, .field ⟨"a", "k"⟩⟩⟩
    Query.parse "SELECT * FROM a JOIN b ON a.k=b.k WHERE b.k=a.k" = .ok query ∧
      ∃ row : Row, row.keys = ["a.b.k", "a.k", "b.k"] ∧
        row.get? "b.k" = some (.boolean true) ∧
        (do let projected ← project { store := fun name => some (tables name) } "a"
            query.joins.foldlM (join { store := fun name => some (tables name) }) projected) =
          .ok [row] := by
  intro tables query
  have hselect := @Select.Spelled.mk .accepted _ "SELECT".toList [' '] _ [' '] "FROM".toList [' ']
    "a" (by decide) (by decide) .wildcard (by decide) (by decide) (by decide)
  have hjoin := @Join.Spelled.mk .accepted "JOIN".toList [' '] [' '] "ON".toList [' '] [] []
    "b" ⟨"a", "k"⟩ ⟨"b", "k"⟩ (by decide) (by decide) (by decide) (by decide) (by decide)
    (by decide) (by decide)
  have hjoins := JoinsSpelled.cons (by decide : Text.Gap [' ']) hjoin .nil
  have hcondition := @Condition.Spelled.mk .accepted _ _ _ [] [] _ .equal (.field ⟨"b", "k"⟩)
    (by decide) (by decide) (.field ⟨"a", "k"⟩)
  have hrestriction := @RestrictionSpelled.some .accepted _ [' '] "WHERE".toList [' '] _
    (by decide) (by decide) (by decide) hcondition
  have hquery := Query.Spelled.mk hselect hjoins hrestriction (by decide : Text.Blanks [])
  have hparse : Query.parse "SELECT * FROM a JOIN b ON a.k=b.k WHERE b.k=a.k" = .ok query := by
    refine Query.parse_eq_ok_iff.mpr ⟨?_, ⟨by decide, by decide, by decide⟩⟩
    simpa [FieldRef.text, CompareOp.symbol] using hquery
  obtain ⟨joined, hjoined, -, hrows⟩ := @joined_rows_resolve (String → Option Table) _
    { store := fun name => some (tables name) } tables _ query hparse (by decide) fun _ _ => rfl
  have hcontributions : query.contributions tables =
      [[.ofPairs [("b.k", .null), ("k", .boolean true)], .ofPairs [("k", .boolean true)]]] := by
    decide
  rw [hcontributions, List.forall₂_cons_right_iff] at hrows
  obtain ⟨row, rest, hrow, hrest, rfl⟩ := hrows
  obtain rfl := List.forall₂_nil_right_iff.mp hrest
  refine ⟨hparse, row, hrow.keys, ?_, hjoined⟩
  exact hrow.get? ⟨"b", "k"⟩ (by decide)

end Engine

end TableQuery
