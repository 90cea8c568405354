import TableQuery.Engine
import TableQuery.Proofs.Pipeline.Meaning

/-!
An engine whose tables all exist answers a query with exactly the rows that the
query asks for.
-/

namespace TableQuery.Engine

variable {σ : Type} [Store σ] {engine : Engine σ} {tables : String → Table}

theorem project_eq_ok {name : String} (h : engine.getTable? name = some (tables name)) :
    engine.project name = .ok ((tables name).qualify name) := by
  rw [project, h]

theorem join_eq_ok {join : Join} {table : Table}
    (h : engine.getTable? join.table = some table) (left : Table) :
    engine.join left join =
      .ok (left.joinOn (table.qualify join.table) join.keys.1 join.keys.2) := by
  rw [Engine.join, project, h]
  rfl

theorem foldlM_join_eq_ok {joins : List Join}
    (h : ∀ join ∈ joins, engine.getTable? join.table = some (tables join.table)) (left : Table) :
    joins.foldlM engine.join left = .ok (left.joinAll tables joins) := by
  induction joins generalizing left with
  | nil => rfl
  | cons join joins ih =>
      obtain ⟨hjoin, hjoins⟩ := List.forall_mem_cons.mp h
      rw [List.foldlM_cons, join_eq_ok hjoin]
      exact ih hjoins _

/-- If all tables of a query exist, the engine returns the rows of those tuples
that the query keeps: none is lost, none comes twice, and none out of order. -/
theorem executeQuery_eq_answer {query : Query}
    (h : ∀ name ∈ query.tableNames, engine.getTable? name = some (tables name)) :
    engine.executeQuery query = .ok (query.answer tables) := by
  obtain ⟨hsource, hjoined⟩ := List.forall_mem_cons.mp h
  have hjoins : ∀ join ∈ query.joins, engine.getTable? join.table = some (tables join.table) :=
    fun join hjoin => hjoined join.table (List.mem_map_of_mem hjoin)
  rw [executeQuery, project_eq_ok hsource]
  change (query.joins.foldlM engine.join _ >>= fun joined => .ok _) = _
  rw [foldlM_join_eq_ok hjoins]
  exact congrArg Except.ok (pipeline_eq_answer tables query)

theorem executeQuery_two_tables :
    executeQuery
        ({ store := fun name =>
            if name = "a" then some [.ofPairs [("k", .string "u")], .ofPairs [("k", .string "v")]]
            else
              some [.ofPairs [("k", .string "v"), ("n", .null)], .ofPairs [("k", .string "u")]] } :
          Engine (String → Option Table))
        ⟨⟨.fields [⟨"b", "n"⟩, ⟨"a", "k"⟩], "a"⟩, [⟨"b", ⟨"b", "k"⟩, ⟨"a", "k"⟩⟩],
          some ⟨.field ⟨"a", "k"⟩, .notEqual, .literal (.string "v")⟩⟩ =
      .ok [.ofPairs [("b.n", .null), ("a.k", .string "u")]] := by
  refine (@executeQuery_eq_answer _ _ _ (fun name =>
    if name = "a" then [.ofPairs [("k", .string "u")], .ofPairs [("k", .string "v")]]
    else [.ofPairs [("k", .string "v"), ("n", .null)], .ofPairs [("k", .string "u")]]) _ ?_).trans
      (congrArg Except.ok (by decide))
  intro name _
  by_cases h : name = "a"
  · simp [getTable?, Store.table?, h]
  · simp [getTable?, Store.table?, h]

end TableQuery.Engine
