import Mathlib.Data.List.Flatten
import TableQuery.Proofs.Engine.Missing

/-!
What a query answers when its tables get more rows. No stage looks at how many
rows there are, or at one row in the light of another, so new rows may come in at
any place of any table: the old answer stays, row for row and in its order, with
rows of the new answer in between. Tables that a query does not name have no part
in its answer at all.
-/

namespace TableQuery

namespace Table

variable {small large : Table}

theorem qualify_sublist (h : small.Sublist large) (name : String) :
    (small.qualify name).Sublist (large.qualify name) :=
  h.map (Row.qualify name)

theorem joinOn_sublist {right more : Table} (h : small.Sublist large) (hright : right.Sublist more)
    (leftKey rightKey : String) :
    (small.joinOn right leftKey rightKey).Sublist (large.joinOn more leftKey rightKey) := by
  have hrow : ∀ l ∈ small,
      ((right.filter fun r => equalCells (r.get? rightKey) (l.get? leftKey)).map l.merge).Sublist
        ((more.filter fun r => equalCells (r.get? rightKey) (l.get? leftKey)).map l.merge) :=
    fun l _ => (hright.filter _).map l.merge
  calc
    (small.joinOn right leftKey rightKey).Sublist (small.joinOn more leftKey rightKey) :=
      List.Sublist.flatMap_right small hrow
    List.Sublist _ (large.joinOn more leftKey rightKey) := h.flatMap _

/-- A table that is joined several times has its new rows in each of its places. -/
theorem joinAll_sublist {tables others : String → Table} {joins : List Join}
    (hjoins : ∀ join ∈ joins, (tables join.table).Sublist (others join.table))
    (h : small.Sublist large) :
    (small.joinAll tables joins).Sublist (large.joinAll others joins) := by
  induction joins generalizing small large with
  | nil => exact h
  | cons join joins ih =>
      obtain ⟨hjoin, hrest⟩ := List.forall_mem_cons.mp hjoins
      apply ih hrest
      exact joinOn_sublist h (qualify_sublist hjoin join.table) _ _

theorem restrict_sublist (h : small.Sublist large) (condition : Option Condition) :
    (small.restrict condition).Sublist (large.restrict condition) := by
  cases condition with
  | none => exact h
  | some condition => exact h.filter condition.holds

theorem select_sublist (h : small.Sublist large) (fields : FieldList) :
    (small.select fields).Sublist (large.select fields) := by
  cases fields with
  | wildcard => exact h
  | fields refs => exact h.map _

end Table

namespace Engine

variable {σ τ : Type} [Store σ] [Store τ] {engine : Engine σ} {other : Engine τ}

theorem project_congr {name : String} (h : engine.getTable? name = other.getTable? name) :
    engine.project name = other.project name := by
  rw [project, project, h]

theorem foldlM_join_congr {joins : List Join}
    (h : ∀ join ∈ joins, engine.getTable? join.table = other.getTable? join.table) (left : Table) :
    joins.foldlM engine.join left = joins.foldlM other.join left := by
  induction joins generalizing left with
  | nil => rfl
  | cons join joins ih =>
      obtain ⟨hjoin, hrest⟩ := List.forall_mem_cons.mp h
      have hstep : engine.join left join = other.join left join := by
        rw [Engine.join, Engine.join, project_congr hjoin]
      rw [List.foldlM_cons, List.foldlM_cons, hstep]
      exact bind_congr fun joined => ih hrest joined

theorem executeQuery_congr {query : Query}
    (h : ∀ name ∈ query.tableNames, engine.getTable? name = other.getTable? name) :
    engine.executeQuery query = other.executeQuery query := by
  obtain ⟨hsource, hjoined⟩ := List.forall_mem_cons.mp h
  have hjoins : ∀ join ∈ query.joins, engine.getTable? join.table = other.getTable? join.table :=
    fun join hjoin => hjoined join.table (List.mem_map_of_mem hjoin)
  rw [executeQuery_eq_joined, executeQuery_eq_joined, project_congr hsource]
  congr 1
  exact bind_congr fun projected => foldlM_join_congr hjoins projected

theorem executeQuery_eq_ok_stored {query : Query}
    (h : ∀ name ∈ query.tableNames, engine.getTable? name ≠ none) :
    engine.executeQuery query =
      .ok (((((engine.stored query.select.source).qualify query.select.source).joinAll
        engine.stored query.joins).restrict query.condition).select query.select.fields) := by
  rw [executeQuery_eq_joined, joined_eq_ok fun name hname => getTable?_eq_stored (h name hname)]
  rfl

/-- If the rows of every table of a query are found again, in their order, in the
table of that name in another store, then so are the rows of the answer in the
answer of that store. Stores that have the same tables of these names give the
same answer. -/
theorem executeQuery_sublist (engine : Engine σ) (other : Engine τ) (query : Query) :
    ((∀ name ∈ query.tableNames, ∃ table more, engine.getTable? name = some table ∧
        other.getTable? name = some more ∧ table.Sublist more) →
      ∃ rows more, engine.executeQuery query = .ok rows ∧ other.executeQuery query = .ok more ∧
        rows.Sublist more) ∧
    ((∀ name ∈ query.tableNames, engine.getTable? name = other.getTable? name) →
      engine.executeQuery query = other.executeQuery query) := by
  refine ⟨?_, executeQuery_congr⟩
  intro h
  have hstored : ∀ name ∈ query.tableNames,
      (engine.stored name).Sublist (other.stored name) := by
    intro name hname
    obtain ⟨table, more, htable, hmore, hsub⟩ := h name hname
    rw [stored, stored, htable, hmore]
    exact hsub
  have hexists : ∀ name ∈ query.tableNames, engine.getTable? name ≠ none := by
    intro name hname
    obtain ⟨table, -, htable, -⟩ := h name hname
    simp [htable]
  have hother : ∀ name ∈ query.tableNames, other.getTable? name ≠ none := by
    intro name hname
    obtain ⟨-, more, -, hmore, -⟩ := h name hname
    simp [hmore]
  refine ⟨_, _, executeQuery_eq_ok_stored hexists, executeQuery_eq_ok_stored hother, ?_⟩
  obtain ⟨hsource, hjoined⟩ := List.forall_mem_cons.mp hstored
  apply Table.select_sublist
  apply Table.restrict_sublist
  apply Table.joinAll_sublist
  · exact fun join hjoin => hjoined join.table (List.mem_map_of_mem hjoin)
  · exact Table.qualify_sublist hsource _

/-- New rows before and after the old one, in a table that is joined with itself. -/
theorem executeQuery_grown_self_join :
    let row (key : String) : Row := .ofPairs [("k", .string key)]
    let joined (key : String) : Row := .ofPairs [("t.k", .string key)]
    let query : Query := ⟨⟨.wildcard, "t"⟩, [⟨"t", ⟨"t", "k"⟩, ⟨"t", "k"⟩⟩], none⟩
    let run (table : Table) :=
      executeQuery ({ store := fun _ => some table } : Engine (String → Option Table)) query
    run [row "u"] = .ok [joined "u"] ∧
      run [row "v", row "u", row "u"] =
        .ok [joined "v", joined "u", joined "u", joined "u", joined "u"] ∧
      [joined "u"].Sublist [joined "v", joined "u", joined "u", joined "u", joined "u"] := by
  intro row joined query run
  have hrows : run [row "u"] = .ok [joined "u"] := by rfl
  have hmore : run [row "v", row "u", row "u"] =
      .ok [joined "v", joined "u", joined "u", joined "u", joined "u"] := by rfl
  obtain ⟨rows, more, h, h', hsub⟩ := (executeQuery_sublist
    ({ store := fun _ => some [row "u"] } : Engine (String → Option Table))
    ({ store := fun _ => some [row "v", row "u", row "u"] } : Engine (String → Option Table))
    query).1 fun _ _ => ⟨_, _, rfl, rfl, by decide⟩
  obtain rfl := Except.ok.inj (h.symm.trans hrows)
  obtain rfl := Except.ok.inj (h'.symm.trans hmore)
  exact ⟨hrows, hmore, hsub⟩

end Engine

end TableQuery
