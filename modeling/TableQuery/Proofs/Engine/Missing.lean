import TableQuery.Proofs.Engine.Meaning

/-!
How a run ends. It fails on a text that is not a query, and otherwise only for
want of a table: the missing table that is named first. Rows have no say in this.
A table that joins to nothing still has to exist.
-/

namespace TableQuery.Engine

variable {σ : Type} [Store σ] {engine : Engine σ}

/-- The table is missing, and all that are named before it exist. -/
def FirstMissing (engine : Engine σ) (names : List String) (name : String) : Prop :=
  ∃ before after, names = before ++ name :: after ∧
    (∀ earlier ∈ before, engine.getTable? earlier ≠ none) ∧ engine.getTable? name = none

theorem forall_exist_or_firstMissing (engine : Engine σ) (names : List String) :
    (∀ name ∈ names, engine.getTable? name ≠ none) ∨ ∃ name, engine.FirstMissing names name := by
  induction names with
  | nil => exact .inl (by simp)
  | cons first names ih =>
      by_cases hfirst : engine.getTable? first = none
      · exact .inr ⟨first, [], names, rfl, by simp, hfirst⟩
      · rcases ih with hall | ⟨name, before, after, rfl, hbefore, hname⟩
        · exact .inl (List.forall_mem_cons.mpr ⟨hfirst, hall⟩)
        · exact .inr ⟨name, first :: before, after, rfl,
            List.forall_mem_cons.mpr ⟨hfirst, hbefore⟩, hname⟩

/-- The stored tables, where those that do not exist count as empty. -/
def stored (engine : Engine σ) (name : String) : Table :=
  (engine.getTable? name).getD []

theorem getTable?_eq_stored {name : String} (h : engine.getTable? name ≠ none) :
    engine.getTable? name = some (engine.stored name) := by
  obtain ⟨table, htable⟩ := Option.ne_none_iff_exists'.mp h
  rw [stored, htable, Option.getD_some]

theorem project_eq_error {name : String} (h : engine.getTable? name = none) :
    engine.project name = .error (.tableNotFound name) := by
  rw [project, h]

theorem join_eq_error {join : Join} (h : engine.getTable? join.table = none) (left : Table) :
    engine.join left join = .error (.tableNotFound join.table) := by
  rw [Engine.join, project_eq_error h]
  rfl

/-- Joins go on up to the first missing table, whatever rows they have made by
then. -/
theorem foldlM_join_eq_error {joins : List Join} {name : String}
    (h : engine.FirstMissing (joins.map Join.table) name) (left : Table) :
    joins.foldlM engine.join left = .error (.tableNotFound name) := by
  obtain ⟨before, after, hnames, hbefore, hname⟩ := h
  obtain ⟨earlier, others, rfl, rfl, hothers⟩ := List.map_eq_append_iff.mp hnames
  obtain ⟨join, later, rfl, rfl, -⟩ := List.map_eq_cons_iff.mp hothers
  have hearlier : ∀ join ∈ earlier, engine.getTable? join.table = some (engine.stored join.table) :=
    fun join hjoin => getTable?_eq_stored (hbefore join.table (List.mem_map_of_mem hjoin))
  rw [List.foldlM_append, foldlM_join_eq_ok hearlier]
  change List.foldlM engine.join _ (join :: later) = _
  rw [List.foldlM_cons, join_eq_error hname]
  rfl

/-- The rows on which a query is filtered and selected, if all its tables exist. -/
theorem joined_eq_ok {tables : String → Table} {query : Query}
    (h : ∀ name ∈ query.tableNames, engine.getTable? name = some (tables name)) :
    (do let projected ← engine.project query.select.source
        query.joins.foldlM engine.join projected) =
      .ok (((tables query.select.source).qualify query.select.source).joinAll tables
        query.joins) := by
  obtain ⟨hsource, hjoined⟩ := List.forall_mem_cons.mp h
  rw [project_eq_ok hsource]
  exact foldlM_join_eq_ok (fun join hjoin => hjoined _ (List.mem_map_of_mem hjoin)) _

theorem executeQuery_eq_joined (engine : Engine σ) (query : Query) :
    engine.executeQuery query =
      (do let projected ← engine.project query.select.source
          query.joins.foldlM engine.join projected).map fun joined : Table =>
        (joined.restrict query.condition).select query.select.fields := by
  rw [executeQuery]
  cases engine.project query.select.source with
  | error cause => rfl
  | ok projected =>
      change (query.joins.foldlM engine.join projected).bind _ =
        (query.joins.foldlM engine.join projected).map _
      cases query.joins.foldlM engine.join projected with
      | error cause => rfl
      | ok joined => rfl

theorem exists_executeQuery_eq_ok {query : Query}
    (h : ∀ name ∈ query.tableNames, engine.getTable? name ≠ none) :
    ∃ rows, engine.executeQuery query = .ok rows := by
  rw [executeQuery_eq_joined, joined_eq_ok fun name hname => getTable?_eq_stored (h name hname)]
  exact ⟨_, rfl⟩

theorem executeQuery_eq_error {query : Query} {name : String}
    (h : engine.FirstMissing query.tableNames name) :
    engine.executeQuery query = .error (.tableNotFound name) := by
  obtain ⟨before, after, hnames, hbefore, hname⟩ := h
  cases before with
  | nil =>
      obtain ⟨rfl, -⟩ := List.cons.inj hnames
      rw [executeQuery, project_eq_error hname]
      rfl
  | cons source before =>
      obtain ⟨hsource, hjoins⟩ := List.cons.inj hnames
      obtain ⟨hfirst, hbefore⟩ := List.forall_mem_cons.mp hbefore
      have hproject := project_eq_ok (getTable?_eq_stored hfirst)
      rw [executeQuery, hsource, hproject]
      change (query.joins.foldlM engine.join _ >>= fun joined => .ok _) = _
      rw [foldlM_join_eq_error ⟨before, after, hjoins, hbefore, hname⟩]
      rfl

theorem executeQuery_cases (engine : Engine σ) (query : Query) :
    ((∀ name ∈ query.tableNames, engine.getTable? name ≠ none) ∧
        ∃ rows, engine.executeQuery query = .ok rows) ∨
      ∃ name, engine.FirstMissing query.tableNames name ∧
        engine.executeQuery query = .error (.tableNotFound name) := by
  rcases forall_exist_or_firstMissing engine query.tableNames with hall | ⟨name, hname⟩
  · exact .inl ⟨hall, exists_executeQuery_eq_ok hall⟩
  · exact .inr ⟨name, hname, executeQuery_eq_error hname⟩

theorem FirstMissing.exists_mem {names : List String} {name : String}
    (h : engine.FirstMissing names name) : ∃ n ∈ names, engine.getTable? n = none := by
  obtain ⟨before, after, rfl, -, hname⟩ := h
  exact ⟨name, by simp, hname⟩

theorem exists_executeQuery_eq_ok_iff {query : Query} :
    (∃ rows, engine.executeQuery query = .ok rows) ↔
      ∀ name ∈ query.tableNames, engine.getTable? name ≠ none := by
  refine ⟨?_, exists_executeQuery_eq_ok⟩
  rintro ⟨rows, hrows⟩
  rcases executeQuery_cases engine query with ⟨hall, -⟩ | ⟨name, -, herror⟩
  · exact hall
  · simp [hrows] at herror

theorem executeQuery_eq_error_iff {query : Query} {name : String} :
    engine.executeQuery query = .error (.tableNotFound name) ↔
      engine.FirstMissing query.tableNames name := by
  refine ⟨?_, executeQuery_eq_error⟩
  intro h
  rcases executeQuery_cases engine query with ⟨-, rows, hrows⟩ | ⟨other, hother, herror⟩
  · simp [h] at hrows
  · obtain rfl : name = other := by simpa [h] using herror
    exact hother

theorem exists_executeQuery_eq_error_iff {query : Query} :
    (∃ name, engine.executeQuery query = .error (.tableNotFound name)) ↔
      ∃ name ∈ query.tableNames, engine.getTable? name = none := by
  constructor
  · rintro ⟨name, h⟩
    exact (executeQuery_eq_error_iff.mp h).exists_mem
  · rintro ⟨name, hmem, hname⟩
    rcases executeQuery_cases engine query with ⟨hall, -⟩ | ⟨first, -, herror⟩
    · exact absurd hname (hall name hmem)
    · exact ⟨first, herror⟩

theorem execute_eq_invalidQuery_iff {text : String} {cause : SyntaxError} :
    engine.execute text = .error (.invalidQuery cause) ↔ engine.parser text = .error cause := by
  rw [execute]
  cases engine.parser text with
  | error other => simp
  | ok query =>
      rcases executeQuery_cases engine query with ⟨-, rows, h⟩ | ⟨name, -, h⟩
      · simp [h]
      · simp [h]

/-- A text that is not a query is refused whatever is stored, and a query fails
exactly if one of its tables is missing, with the first of them in the order of
its clauses. Neither the rows nor the columns, the condition and the selection
that the query asks for can change that. -/
theorem execute_outcomes (engine : Engine σ) (text : String) :
    (∀ cause, engine.execute text = .error (.invalidQuery cause) ↔
        engine.parser text = .error cause) ∧
      (∀ query, engine.parser text = .ok query →
        engine.execute text = engine.executeQuery query) ∧
      ∀ query : Query,
        ((∃ rows, engine.executeQuery query = .ok rows) ↔
            ∀ name ∈ query.tableNames, engine.getTable? name ≠ none) ∧
          ((∃ name, engine.executeQuery query = .error (.tableNotFound name)) ↔
            ∃ name ∈ query.tableNames, engine.getTable? name = none) ∧
          ∀ name, engine.executeQuery query = .error (.tableNotFound name) ↔
            engine.FirstMissing query.tableNames name := by
  refine ⟨fun _ => execute_eq_invalidQuery_iff, ?_, fun query => ⟨exists_executeQuery_eq_ok_iff,
    exists_executeQuery_eq_error_iff, fun _ => executeQuery_eq_error_iff⟩⟩
  intro query hquery
  rw [execute, hquery]

theorem execute_two_missing :
    execute
        ({ store := fun name => if name = "a" then some [] else none
           parser := fun _ => .ok ⟨⟨.wildcard, "a"⟩,
            [⟨"a", ⟨"a", "x"⟩, ⟨"a", "x"⟩⟩, ⟨"c", ⟨"c", "x"⟩, ⟨"a", "x"⟩⟩,
              ⟨"b", ⟨"b", "x"⟩, ⟨"c", "x"⟩⟩], none⟩ } : Engine (String → Option Table)) "?" =
      .error (.tableNotFound "c") := by
  obtain ⟨-, hrun, houtcome⟩ := execute_outcomes
    ({ store := fun name => if name = "a" then some [] else none
       parser := fun _ => .ok ⟨⟨.wildcard, "a"⟩,
        [⟨"a", ⟨"a", "x"⟩, ⟨"a", "x"⟩⟩, ⟨"c", ⟨"c", "x"⟩, ⟨"a", "x"⟩⟩,
          ⟨"b", ⟨"b", "x"⟩, ⟨"c", "x"⟩⟩], none⟩ } : Engine (String → Option Table)) "?"
  rw [hrun _ rfl, (houtcome _).2.2]
  exact ⟨["a", "a"], ["b"], rfl, by decide, by decide⟩

end TableQuery.Engine
