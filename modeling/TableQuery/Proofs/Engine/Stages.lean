import TableQuery.Engine.Stages
import TableQuery.Proofs.Engine.Reports

/-!
The stages of a query. The last one is what the query is answered with, and those before it
are the tables that the run makes on its way: what is projected, the rows after each join and
what the filter leaves. A run stops at the first table that is missing.
-/

namespace TableQuery.Engine

variable {σ : Type} [Store σ] {engine : Engine σ} {query : Query}

theorem getLast?_joinStages {left : Table} {joins : List Join} {error : ExecError}
    (h : joins.foldlM engine.join left = .error error) :
    (engine.joinStages left joins).getLast? = some (.error error) := by
  induction joins generalizing left with
  | nil => cases h
  | cons join joins ih =>
      rw [List.foldlM_cons] at h
      rw [joinStages]
      cases hjoin : engine.join left join with
      | error =>
          rw [hjoin] at h
          cases h
          rfl
      | ok joined =>
          rw [hjoin] at h
          simp only [List.getLast?_cons, ih h, Option.getD_some]

theorem getLast?_stages (engine : Engine σ) (query : Query) :
    (engine.stages query).getLast? = some (engine.executeQuery query) := by
  rw [executeQuery_eq_joined, stages]
  cases engine.project query.select.source with
  | error => rfl
  | ok projected =>
      change _ = some ((query.joins.foldlM engine.join projected).map _)
      cases hjoins : query.joins.foldlM engine.join projected with
      | error =>
          simp only [hjoins, List.getLast?_cons, getLast?_joinStages hjoins, Option.getD_some]
          rfl
      | ok joined =>
          simp only [hjoins, List.getLast?_append]
          rfl

/-- Joins of tables that exist give the rows after each of them, and what follows goes on from
the last of these. -/
theorem joinStages_append {earlier : List Join}
    (h : ∀ join ∈ earlier, engine.getTable? join.table ≠ none) (left : Table)
    (later : List Join) {rows : Nat → Table}
    (hrows : ∀ i ≤ earlier.length, rows i = left.joinAll engine.stored (earlier.take i)) :
    .ok left :: engine.joinStages left (earlier ++ later) =
      (List.range (earlier.length + 1)).map (fun i => .ok (rows i)) ++
        engine.joinStages (rows earlier.length) later := by
  have hleft : rows 0 = left := hrows 0 (Nat.zero_le _)
  induction earlier generalizing left rows with
  | nil =>
      rw [← hleft]
      rfl
  | cons join earlier ih =>
      obtain ⟨hjoin, hearlier⟩ := List.forall_mem_cons.mp h
      have hfirst : rows 1 = left.joinAll engine.stored [join] := hrows 1 (by simp)
      have hnext : ∀ i ≤ earlier.length, rows (i + 1) =
          (left.joinAll engine.stored [join]).joinAll engine.stored (earlier.take i) :=
        fun i hi => hrows (i + 1) (Nat.succ_le_succ hi)
      have hjoined : engine.join left join = .ok (left.joinAll engine.stored [join]) :=
        join_eq_ok (getTable?_eq_stored hjoin) left
      rw [List.cons_append, joinStages, hjoined]
      simp only [ih hearlier _ hnext hfirst]
      rw [List.length_cons, List.range_succ_eq_map (n := earlier.length + 1), List.map_cons,
        List.map_map, hleft, List.cons_append]
      rfl

/-- If every table exists, the stages are the rows for each table, what the filter leaves of the
last of them, and the answer. -/
theorem stages_of_exist (h : ∀ name ∈ query.tableNames, engine.getTable? name ≠ none) :
    engine.stages query =
      (List.range query.tableNames.length).map (fun i => .ok (query.rowsAfter engine.stored i)) ++
        [.ok ((query.rowsAfter engine.stored query.joins.length).restrict query.condition),
          engine.executeQuery query] := by
  obtain ⟨hsource, hjoins⟩ := List.forall_mem_cons.mp h
  have hjoins : ∀ join ∈ query.joins, engine.getTable? join.table ≠ none :=
    fun join hjoin => hjoins _ (List.mem_map_of_mem hjoin)
  have hall : query.joins.foldlM engine.join (qualifiedTable engine.stored query.select.source) =
      .ok (query.rowsAfter engine.stored query.joins.length) := by
    rw [Query.rowsAfter, List.take_length]
    exact foldlM_join_eq_ok (fun join hjoin => getTable?_eq_stored (hjoins join hjoin)) _
  have hrows : ∀ i ≤ query.joins.length, query.rowsAfter engine.stored i =
      (qualifiedTable engine.stored query.select.source).joinAll engine.stored
        (query.joins.take i) := fun _ _ => rfl
  have hstages := joinStages_append hjoins (qualifiedTable engine.stored query.select.source) []
    hrows
  rw [List.append_nil, joinStages, List.append_nil] at hstages
  have hanswer : engine.executeQuery query = .ok (((query.rowsAfter engine.stored
      query.joins.length).restrict query.condition).select query.select.fields) := by
    rw [executeQuery_eq_joined, project_eq_ok_qualified hsource]
    exact congrArg (Except.map _) hall
  rw [hanswer, stages, project_eq_ok_qualified hsource]
  simp only [Query.tableNames, List.length_cons, List.length_map, hall, hstages]

/-- A run that stops has made the rows for each table before the missing one. -/
theorem stages_of_missing {before after : List String} {name : String}
    (hnames : query.tableNames = before ++ name :: after)
    (hbefore : ∀ earlier ∈ before, engine.getTable? earlier ≠ none)
    (hname : engine.getTable? name = none) :
    engine.stages query =
      (List.range before.length).map (fun i => .ok (query.rowsAfter engine.stored i)) ++
        [.error (.tableNotFound name)] := by
  cases before with
  | nil =>
      obtain ⟨rfl, -⟩ := List.cons.inj hnames
      rw [stages, project_eq_error hname]
      rfl
  | cons source before =>
      obtain ⟨rfl, hjoins⟩ := List.cons.inj hnames
      obtain ⟨hsource, hbefore⟩ := List.forall_mem_cons.mp hbefore
      have hall := foldlM_join_eq_error ⟨before, after, hjoins, hbefore, hname⟩
        (qualifiedTable engine.stored query.select.source)
      -- The joins before the missing table are those of the names before it.
      obtain ⟨earlier, others, hsplit, rfl, hothers⟩ := List.map_eq_append_iff.mp hjoins
      obtain ⟨join, later, rfl, rfl, -⟩ := List.map_eq_cons_iff.mp hothers
      have hrows : ∀ i ≤ earlier.length, query.rowsAfter engine.stored i =
          (qualifiedTable engine.stored query.select.source).joinAll engine.stored
            (earlier.take i) := by
        intro i hi
        rw [Query.rowsAfter, hsplit, List.take_append_of_le_length hi]
      have hstages := joinStages_append (fun join hjoin => hbefore _ (List.mem_map_of_mem hjoin))
        (qualifiedTable engine.stored query.select.source) (join :: later) hrows
      rw [← hsplit, joinStages, join_eq_error hname] at hstages
      rw [stages, project_eq_ok_qualified hsource]
      simp only [hall, hstages, List.length_cons, List.length_map]

end TableQuery.Engine
