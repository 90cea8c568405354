import TableQuery.Proofs.Pipeline.Cells
import TableQuery.Proofs.Pipeline.Tuples
import TableQuery.Proofs.Row.Columns

/-!
What a query asks for, said about all its tables at once. Each tuple of rows,
one from every table, is a candidate; the joins and the condition decide whether
it is kept, and the selection says which row it becomes. The stages of the
pipeline come to the same, though they put the rows side by side one table at a
time and never see a whole tuple before the last join.
-/

namespace TableQuery

namespace Join

/-- The side of the joined table: the one written first if it names that table,
and otherwise the one written second. -/
def joinedField (join : Join) : FieldRef :=
  if join.left.table = join.table then join.left else join.right

/-- The other side, which is looked up in the rows so far. -/
def earlierField (join : Join) : FieldRef :=
  if join.left.table = join.table then join.right else join.left

theorem keys_eq (join : Join) : join.keys = (join.earlierField.key, join.joinedField.key) := by
  by_cases h : join.left.table = join.table
  · simp [keys, joinedField, earlierField, h]
  · simp [keys, joinedField, earlierField, h, Ne.symm h]

end Join

/-- The first row of a tuple and `count` further ones side by side. -/
def mergedRow : List Row → Nat → Row
  | [], _ => Row.empty
  | first :: others, count => (others.take count).foldl Row.beside first

/-- Every join finds equal cells, on one side in the rows before the joined one
and on the other side in that row. A missing cell equals only another missing
one. -/
def Matches (joins : List Join) (rows : List Row) : Prop :=
  ∀ i (_ : i < joins.length),
    equalCells ((mergedRow rows i).get? joins[i].earlierField.key)
      (rows[i + 1]?.bind fun row => row.get? joins[i].joinedField.key) = true

instance (joins : List Join) (rows : List Row) : Decidable (Matches joins rows) :=
  inferInstanceAs (Decidable (∀ i (_ : i < joins.length), _ = true))

/-- Every join matches, and the condition holds if there is one. -/
def Query.Keeps (query : Query) (rows : List Row) : Prop :=
  Matches query.joins rows ∧
    ∀ condition ∈ query.condition, condition.holds (mergedRow rows query.joins.length) = true

instance (query : Query) (rows : List Row) : Decidable (query.Keeps rows) :=
  inferInstanceAs (Decidable (_ ∧ _))

def FieldList.output : FieldList → Row → Row
  | .wildcard, row => row
  | .fields refs, row => row.requested (refs.map FieldRef.key)

def Query.tableNames (query : Query) : List String :=
  query.select.source :: query.joins.map Join.table

def qualifiedTable (tables : String → Table) (name : String) : Table :=
  (tables name).map (Row.qualified name)

/-- The rows of a query: of all tuples, in the lexicographic order of their
indices, those that are kept, each as one row. -/
def Query.answer (query : Query) (tables : String → Table) : Table :=
  let sources := query.tableNames.map (qualifiedTable tables)
  let tuples := (indexTuples (sources.map List.length)).map (rowsAt sources)
  (tuples.filter fun rows => query.Keeps rows).map fun rows =>
    query.select.fields.output (mergedRow rows query.joins.length)

theorem matches_cons {join : Join} {joins : List Join} {first second : Row} {rows : List Row} :
    Matches (join :: joins) (first :: second :: rows) ↔
      equalCells (first.get? join.earlierField.key) (second.get? join.joinedField.key) = true ∧
        Matches joins (first.beside second :: rows) := by
  constructor
  · intro h
    exact ⟨h 0 (by simp), fun i hi => h (i + 1) (by simpa using hi)⟩
  · rintro ⟨hfirst, hrest⟩ (_ | i) hi
    · exact hfirst
    · exact hrest i (by simpa using hi)

/-- The rows so far, joined with further tables. -/
def Table.joinAll (tables : String → Table) (left : Table) (joins : List Join) : Table :=
  joins.foldl (fun left join =>
    left.joinOn ((tables join.table).qualify join.table) join.keys.1 join.keys.2) left

theorem qualify_eq_qualifiedTable (tables : String → Table) (name : String) :
    (tables name).qualify name = qualifiedTable tables name := by
  rw [Table.qualify, qualifiedTable]
  exact List.map_congr_left fun row _ => Row.qualify_eq_qualified name row

theorem joinOn_eq (left : Table) (tables : String → Table) (join : Join) :
    left.joinOn ((tables join.table).qualify join.table) join.keys.1 join.keys.2 =
      left.flatMap fun l => ((qualifiedTable tables join.table).filter fun r =>
        equalCells (l.get? join.earlierField.key) (r.get? join.joinedField.key)).map
          l.beside := by
  rw [Table.joinOn, qualify_eq_qualifiedTable, Join.keys_eq]
  have hmerge (l : Row) : l.merge = l.beside := funext (Row.merge_eq_beside l)
  simp only [hmerge, equalCells_comm]

theorem flatMap_filter {α β : Type} (p : α → Bool) (f : α → List β) (l : List α) :
    (l.filter p).flatMap f = l.flatMap fun a => if p a then f a else [] := by
  induction l with
  | nil => rfl
  | cons a l ih => by_cases h : p a <;> simp [h, ih]

/-- Joining table after table keeps exactly the tuples that match, in order. The
rows so far stand for the beginnings of tuples, so they vary in the induction. -/
theorem joinAll_eq (tables : String → Table) (left : Table) (joins : List Join) :
    left.joinAll tables joins =
      left.flatMap fun l =>
        ((rowTuples (joins.map fun join => qualifiedTable tables join.table)).filter fun rows =>
          Matches joins (l :: rows)).map fun rows => mergedRow (l :: rows) joins.length := by
  induction joins generalizing left with
  | nil =>
      have hnil (l : Row) : Matches [] [l] := fun i h => absurd h (by simp)
      simp [Table.joinAll, rowTuples, hnil, mergedRow]
  | cons join joins ih =>
      rw [Table.joinAll, List.foldl_cons, ← Table.joinAll, ih, joinOn_eq, List.flatMap_assoc]
      congr 1
      funext l
      rw [List.flatMap_map, flatMap_filter, List.map_cons, rowTuples, List.filter_flatMap,
        List.map_flatMap]
      -- A row that does not match the new one drops out with all tuples that go on from it.
      congr 1
      funext r
      rw [List.filter_map, List.map_map]
      by_cases h : equalCells (l.get? join.earlierField.key) (r.get? join.joinedField.key) = true
      · simp only [h, if_true, Function.comp_def, matches_cons, true_and]
        rfl
      · simp [h, Function.comp_def, matches_cons]

/-- The first table only adds one more place in front of the tuples. -/
theorem joinAll_source_eq (tables : String → Table) (query : Query) :
    ((tables query.select.source).qualify query.select.source).joinAll tables query.joins =
      ((rowTuples (query.tableNames.map (qualifiedTable tables))).filter fun rows =>
        Matches query.joins rows).map fun rows => mergedRow rows query.joins.length := by
  rw [joinAll_eq, qualify_eq_qualifiedTable, Query.tableNames, List.map_cons, rowTuples,
    List.filter_flatMap, List.map_flatMap, List.map_map]
  congr 1
  funext first
  rw [List.filter_map, List.map_map]
  rfl

theorem restrict_eq (table : Table) (condition : Option Condition) :
    table.restrict condition =
      table.filter fun row => ∀ c ∈ condition, c.holds row = true := by
  cases condition with
  | none => exact (List.filter_eq_self.mpr (by simp)).symm
  | some condition => simp [Table.restrict]

theorem select_eq (table : Table) (fields : FieldList) :
    table.select fields = table.map fields.output := by
  cases fields with
  | wildcard => exact (List.map_id _).symm
  | fields refs => exact List.map_congr_left fun row _ => Row.pick_eq_requested row _

/-- Filtering after the joins is filtering tuples, since a tuple that is kept by
the joins has become the row that the condition sees. -/
theorem pipeline_eq_answer (tables : String → Table) (query : Query) :
    ((((tables query.select.source).qualify query.select.source).joinAll tables
        query.joins).restrict query.condition).select query.select.fields =
      query.answer tables := by
  rw [joinAll_source_eq, restrict_eq, select_eq, List.filter_map, List.filter_filter, List.map_map,
    Query.answer, map_rowsAt_indexTuples]
  congr 1
  apply List.filter_congr
  intro rows _
  simp [Query.Keeps, Bool.and_comm]

end TableQuery
