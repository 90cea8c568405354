import TableQuery.Engine.Events
import TableQuery.Proofs.Engine.Missing

/-!
What the events of a run say about it. They follow the run table by table and
then stage by stage, and every count in them is the length of a table that the
run made. A run that misses a table reports on the tables before it and on
nothing else, so an event that tells of a query that was executed stands at the
end of exactly those logs that belong to an answer.
-/

namespace TableQuery

namespace Condition

/-- Checking the condition on the row orders two values of different types. -/
structure Mixes (condition : Condition) (row : Row) (left right : Value) : Prop where
  orders : condition.operator ≠ .equal ∧ condition.operator ≠ .notEqual
  leftValue : condition.left.resolve row = some left
  rightValue : condition.right.resolve row = some right
  kinds : left.kind ≠ right.kind

/-- One event for every row on which values of different types are ordered, in
the order of the rows. -/
inductive MixedReports (condition : Condition) : Table → List Event → Prop
  | nil : MixedReports condition [] []
  | mixed {row : Row} {rows : Table} {events : List Event} {left right : Value} :
      condition.Mixes row left right → MixedReports condition rows events →
      MixedReports condition (row :: rows) (.kindsMixed left.kind right.kind :: events)
  | silent {row : Row} {rows : Table} {events : List Event} :
      (∀ left right, ¬condition.Mixes row left right) → MixedReports condition rows events →
      MixedReports condition (row :: rows) events

theorem mixedKinds?_eq_some_iff {condition : Condition} {row : Row} {event : Event} :
    condition.mixedKinds? row = some event ↔
      ∃ left right, condition.Mixes row left right ∧ event = .kindsMixed left.kind right.kind := by
  have hvalues : ((condition.left.resolve row).bind fun left =>
      (condition.right.resolve row).bind fun right =>
        if left.sameKind right then none else some (Event.kindsMixed left.kind right.kind)) =
        some event ↔
      ∃ left right, condition.left.resolve row = some left ∧
        condition.right.resolve row = some right ∧ left.kind ≠ right.kind ∧
        event = .kindsMixed left.kind right.kind := by
    simp only [Option.bind_eq_some_iff, Value.sameKind, decide_eq_true_eq,
      Option.ite_none_left_eq_some, Option.some.injEq]
    constructor
    · rintro ⟨left, hleft, right, hright, hkinds, rfl⟩
      exact ⟨left, right, hleft, hright, hkinds, rfl⟩
    · rintro ⟨left, right, hleft, hright, hkinds, rfl⟩
      exact ⟨left, hleft, right, hright, hkinds, rfl⟩
  have hequality (h : ¬(condition.operator ≠ .equal ∧ condition.operator ≠ .notEqual)) :
      ¬∃ left right, condition.Mixes row left right ∧
        event = .kindsMixed left.kind right.kind := by
    rintro ⟨left, right, hmixes, -⟩
    exact h hmixes.orders
  unfold mixedKinds?
  split
  · rename_i hoperator
    simp [hequality (by simp [hoperator])]
  · rename_i hoperator
    simp [hequality (by simp [hoperator])]
  · rename_i hequal hnotEqual
    rw [hvalues]
    constructor
    · rintro ⟨left, right, hleft, hright, hkinds, rfl⟩
      exact ⟨left, right, ⟨⟨hequal, hnotEqual⟩, hleft, hright, hkinds⟩, rfl⟩
    · rintro ⟨left, right, hmixes, rfl⟩
      exact ⟨left, right, hmixes.leftValue, hmixes.rightValue, hmixes.kinds, rfl⟩

theorem mixedReports_filterMap (condition : Condition) (rows : Table) :
    condition.MixedReports rows (rows.filterMap condition.mixedKinds?) := by
  induction rows with
  | nil => exact .nil
  | cons row rows ih =>
      cases hrow : condition.mixedKinds? row with
      | none =>
          rw [List.filterMap_cons_none hrow]
          refine .silent (fun left right hmixes => ?_) ih
          rw [mixedKinds?_eq_some_iff.mpr ⟨left, right, hmixes, rfl⟩] at hrow
          simp at hrow
      | some event =>
          obtain ⟨left, right, hmixes, rfl⟩ := mixedKinds?_eq_some_iff.mp hrow
          rw [List.filterMap_cons_some hrow]
          exact .mixed hmixes ih

end Condition

theorem Row.get?_eq_none_iff {row : Row} {key : String} : row.get? key = none ↔ key ∉ row.keys := by
  rw [get?, List.lookup_eq_none_iff, keys, Keyed.keys, List.mem_map]
  simp only [bne_iff_ne, not_exists, not_and]
  exact forall₂_congr fun _ _ => ne_comm

def FieldList.keys : FieldList → List String
  | .wildcard => []
  | .fields refs => refs.map FieldRef.key

namespace Table

inductive FilterReports (rows : Table) : Option Condition → List Event → Prop
  | all : FilterReports rows none []
  | some {condition : Condition} {events : List Event} :
      condition.MixedReports rows events →
      FilterReports rows (some condition)
        (events ++ [.tableFiltered condition.describe rows.length
          (rows.restrict (some condition)).length])

/-- One warning for every requested key that a row lacks, row by row. -/
def missingReports (rows : Table) (fields : FieldList) : List Event :=
  rows.flatMap fun row => (fields.keys.filter fun key => row.get? key = none).map .columnMissing

theorem filterReports_restrictEvents (rows : Table) (condition : Option Condition) :
    rows.FilterReports condition (rows.restrictEvents condition) := by
  cases condition with
  | none => exact .all
  | some condition => exact .some (condition.mixedReports_filterMap rows)

theorem selectEvents_eq (rows : Table) (fields : FieldList) :
    rows.selectEvents fields = rows.missingReports fields := by
  cases fields with
  | wildcard => simp [selectEvents, missingReports, FieldList.keys]
  | fields refs =>
      have hmissing (row : Row) (key : String) :
          row.get? key = none ↔ row.contains key = false := by
        rw [← Bool.not_eq_true, Row.contains_iff, Row.get?_eq_none_iff]
      have hrow (row : Row) (keys : List String) :
          (keys.filterMap fun key =>
              if row.contains key then none else some (Event.columnMissing key)) =
            (keys.filter fun key => row.get? key = none).map .columnMissing := by
        induction keys with
        | nil => rfl
        | cons key keys ih =>
            cases hkey : row.contains key with
            | false => simp [hmissing, hkey, ih]
            | true => simp [hmissing, hkey, ih]
      simp only [selectEvents, missingReports, FieldList.keys, hrow]

end Table

/-! ### Tables -/

/-- What is reported on joined tables, one after another: each is projected and
joined to the rows so far, where `rows i` are the rows after `i` joins. -/
def joinReports (tables : String → Table) (rows : Nat → Table) (joins : List Join) :
    List (List Event) :=
  joins.mapIdx fun i join =>
    [.tableProjected join.table (qualifiedTable tables join.table).length,
      .tableJoined join.table join.earlierField.key join.joinedField.key (rows (i + 1)).length]

/-- What is reported on the tables of a query in the order of its clauses. The
first one is only projected. -/
def Query.tableReports (query : Query) (tables : String → Table) (rows : Nat → Table) :
    List (List Event) :=
  [.tableProjected query.select.source (qualifiedTable tables query.select.source).length] ::
    joinReports tables rows query.joins

def Query.rowsAfter (query : Query) (tables : String → Table) (count : Nat) : Table :=
  (qualifiedTable tables query.select.source).joinAll tables (query.joins.take count)

def Event.stageRows? : Event → Option Nat
  | .tableProjected _ rows => some rows
  | .tableJoined _ _ _ rows => some rows
  | _ => none

theorem take_joinReports (tables : String → Table) (rows : Nat → Table) (joins : List Join)
    (count : Nat) :
    (joinReports tables rows joins).take count = joinReports tables rows (joins.take count) := by
  induction joins generalizing rows count with
  | nil => simp [joinReports]
  | cons join joins ih =>
      cases count with
      | zero => rfl
      | succ count =>
          have htail := ih (fun i => rows (i + 1)) count
          simp only [joinReports, List.mapIdx_cons, List.take_succ_cons] at htail ⊢
          rw [htail]

theorem getLast?_tableReports (query : Query) (tables : String → Table) :
    ((query.tableReports tables (query.rowsAfter tables)).flatten.filterMap
        Event.stageRows?).getLast? =
      some (query.rowsAfter tables query.joins.length).length := by
  rcases List.eq_nil_or_concat query.joins with hnil | ⟨joins, join, hjoins⟩
  · simp [Query.tableReports, Query.rowsAfter, joinReports, hnil, Event.stageRows?, Table.joinAll]
  · rw [Query.tableReports, joinReports, hjoins, List.concat_eq_append, List.mapIdx_append,
      ← List.cons_append]
    simp only [List.mapIdx_cons, List.mapIdx_nil, Nat.zero_add, List.flatten_concat,
      List.filterMap_append, List.getLast?_append]
    simp [Event.stageRows?]

namespace Engine

variable {σ : Type} [Store σ] {engine : Engine σ}

/-- The rows that a run has on its way: what the first table gives, and what every
join gives with the rows before it, for as many tables as it reaches. -/
structure Makes (engine : Engine σ) (query : Query) (reached : Nat) (rows : Nat → Table) :
    Prop where
  projected : 0 < reached → engine.project query.select.source = .ok (rows 0)
  joined : ∀ i (h : i < query.joins.length), i + 1 < reached →
    engine.join (rows i) query.joins[i] = .ok (rows (i + 1))

theorem project_eq_ok_qualified {name : String} (h : engine.getTable? name ≠ none) :
    engine.project name = .ok (qualifiedTable engine.stored name) := by
  rw [project_eq_ok (getTable?_eq_stored h), qualify_eq_qualifiedTable]

theorem makes_rowsAfter {query : Query} {reached : Nat}
    (h : ∀ name ∈ query.tableNames.take reached, engine.getTable? name ≠ none) :
    engine.Makes query reached (query.rowsAfter engine.stored) := by
  constructor
  · intro hreached
    have hsource : query.select.source ∈ query.tableNames.take reached := by
      obtain ⟨count, rfl⟩ := Nat.exists_eq_succ_of_ne_zero (Nat.ne_of_gt hreached)
      exact List.mem_cons_self
    exact project_eq_ok_qualified (h _ hsource)
  · intro i hi hreached
    have hname : query.joins[i].table ∈ query.tableNames.take reached := by
      rw [List.mem_take_iff_getElem]
      exact ⟨i + 1, by simp [Query.tableNames]; omega, by simp [Query.tableNames]⟩
    have htake : query.joins.take (i + 1) = query.joins.take i ++ [query.joins[i]] :=
      List.take_succ_eq_append_getElem hi
    rw [join_eq_ok (getTable?_eq_stored (h _ hname)), Query.rowsAfter, Query.rowsAfter, htake,
      Table.joinAll, Table.joinAll, List.foldl_append]
    rfl

/-! ### Logs -/

theorem logProject_of_exists {name : String} (h : engine.getTable? name ≠ none) :
    engine.logProject name =
      ⟨[.tableProjected name (qualifiedTable engine.stored name).length],
        .ok (qualifiedTable engine.stored name)⟩ := by
  rw [logProject, project_eq_ok_qualified h]

theorem logProject_of_missing {name : String} (h : engine.getTable? name = none) :
    engine.logProject name = ⟨[], .error (.tableNotFound name)⟩ := by
  rw [logProject, project_eq_error h]

theorem logJoin_of_exists {join : Join} (h : engine.getTable? join.table ≠ none) (left : Table) :
    engine.logJoin left join =
      ⟨[.tableProjected join.table (qualifiedTable engine.stored join.table).length,
          .tableJoined join.table join.earlierField.key join.joinedField.key
            (left.joinAll engine.stored [join]).length],
        .ok (left.joinAll engine.stored [join])⟩ := by
  have hrows : left.joinAll engine.stored [join] =
      left.joinOn ((engine.stored join.table).qualify join.table) join.keys.1 join.keys.2 := rfl
  rw [join.keys_eq] at hrows
  simp only [logJoin, logProject_of_exists h, join_eq_ok (getTable?_eq_stored h), join.keys_eq]
  rw [hrows]
  rfl

theorem logJoin_of_missing {join : Join} (h : engine.getTable? join.table = none) (left : Table) :
    engine.logJoin left join = ⟨[], .error (.tableNotFound join.table)⟩ := by
  simp only [logJoin, logProject_of_missing h, join_eq_error h]
  rfl

/-- The joins of tables that exist are reported one by one, and what follows goes on
from the rows that they made. -/
theorem logJoins_append {earlier : List Join}
    (h : ∀ join ∈ earlier, engine.getTable? join.table ≠ none) (left : Table)
    (later : List Join) {rows : Nat → Table}
    (hrows : ∀ i ≤ earlier.length, rows i = left.joinAll engine.stored (earlier.take i)) :
    engine.logJoins left (earlier ++ later) =
      .after (joinReports engine.stored rows earlier).flatten
        (engine.logJoins (left.joinAll engine.stored earlier) later) := by
  induction earlier generalizing left rows with
  | nil => rfl
  | cons join earlier ih =>
      obtain ⟨hjoin, hearlier⟩ := List.forall_mem_cons.mp h
      have hfirst : rows 1 = left.joinAll engine.stored [join] := hrows 1 (by simp)
      -- What is counted from the second join on is counted from here with `rows` shifted.
      have hnext : ∀ i ≤ earlier.length, rows (i + 1) =
          (left.joinAll engine.stored [join]).joinAll engine.stored (earlier.take i) :=
        fun i hi => hrows (i + 1) (Nat.succ_le_succ hi)
      rw [List.cons_append, logJoins, logJoin_of_exists hjoin]
      simp only [ih hearlier _ hnext]
      simp only [Logged.after, joinReports, List.mapIdx_cons, List.flatten_cons, List.append_assoc,
        hfirst]
      rfl

section Runs

variable {query : Query}

theorem logQuery_of_exist (h : ∀ name ∈ query.tableNames, engine.getTable? name ≠ none) :
    engine.logQuery query =
      .after (query.tableReports engine.stored (query.rowsAfter engine.stored)).flatten
        (logOutput (query.rowsAfter engine.stored query.joins.length) query) := by
  obtain ⟨hsource, hjoins⟩ := List.forall_mem_cons.mp h
  have hrows : ∀ i ≤ query.joins.length, query.rowsAfter engine.stored i =
      (qualifiedTable engine.stored query.select.source).joinAll engine.stored
        (query.joins.take i) := fun _ _ => rfl
  have hlog := logJoins_append (fun join hjoin => hjoins _ (List.mem_map_of_mem hjoin))
    (qualifiedTable engine.stored query.select.source) [] hrows
  rw [List.append_nil] at hlog
  simp only [logQuery, logProject_of_exists hsource, hlog]
  simp only [Logged.after, logJoins, Query.tableReports, Query.rowsAfter, List.take_length,
    List.append_nil, List.flatten_cons, List.append_assoc]

/-- Of a run that stops there is a report on each table before the missing one. -/
theorem logQuery_of_missing {before after : List String} {name : String}
    (hnames : query.tableNames = before ++ name :: after)
    (hbefore : ∀ earlier ∈ before, engine.getTable? earlier ≠ none)
    (hname : engine.getTable? name = none) :
    engine.logQuery query =
      ⟨((query.tableReports engine.stored (query.rowsAfter engine.stored)).take
          before.length).flatten, .error (.tableNotFound name)⟩ := by
  cases before with
  | nil =>
      obtain ⟨rfl, -⟩ := List.cons.inj hnames
      simp only [logQuery, logProject_of_missing hname]
      rfl
  | cons source before =>
      -- The names split the joins: those before the missing table, its own and the others.
      obtain ⟨rfl, hjoins⟩ := List.cons.inj hnames
      obtain ⟨hsource, hbefore⟩ := List.forall_mem_cons.mp hbefore
      obtain ⟨earlier, others, hsplit, rfl, hothers⟩ := List.map_eq_append_iff.mp hjoins
      obtain ⟨join, later, rfl, rfl, -⟩ := List.map_eq_cons_iff.mp hothers
      have hrows : ∀ i ≤ earlier.length, query.rowsAfter engine.stored i =
          (qualifiedTable engine.stored query.select.source).joinAll engine.stored
            (earlier.take i) := by
        intro i hi
        rw [Query.rowsAfter, hsplit, List.take_append_of_le_length hi]
      have hlog := logJoins_append (fun join hjoin => hbefore _ (List.mem_map_of_mem hjoin))
        (qualifiedTable engine.stored query.select.source) (join :: later) hrows
      have htake : query.joins.take earlier.length = earlier := by
        rw [hsplit, List.take_left]
      rw [logJoins, logJoin_of_missing hname] at hlog
      simp only [logQuery, logProject_of_exists hsource, hsplit, hlog]
      simp only [Logged.after, Query.tableReports, List.length_cons, List.length_map,
        List.take_succ_cons, take_joinReports, htake, List.flatten_cons, List.append_nil]

end Runs

/-- A text that is not a query is refused with one event. A query is reported on table by
table, up to the first missing one and no further; if none is missing, the filter, the
selection and the execution follow. Each count is the length of a table that the run made:
a projected one, the rows after a join, those before and after the filter, and the answer. -/
theorem logText_reports (store : σ) (text : String) :
    (logText store text).value = execute { store } text ∧
      (Query.parse text = .error .invalidQuery →
        (logText store text).events = [.queryUnmatched text]) ∧
      (∀ position remainder, Query.parse text = .error (.trailingInput position remainder) →
        (logText store text).events = [.inputLeftOver text position]) ∧
      ∀ query, Query.parse text = .ok query → ∃ rows : Nat → Table,
        (∀ before name after, query.tableNames = before ++ name :: after →
          (∀ earlier ∈ before, getTable? { store } earlier ≠ none) →
          getTable? { store } name = none →
            Makes { store } query before.length rows ∧
              logText store text =
                ⟨((query.tableReports (stored { store }) rows).take before.length).flatten,
                  .error (.tableNotFound name)⟩) ∧
        ((∀ name ∈ query.tableNames, getTable? { store } name ≠ none) →
          ∃ joined kept selected filtered,
            Makes { store } query query.tableNames.length rows ∧
              joined = rows query.joins.length ∧
              kept = joined.restrict query.condition ∧
              selected = kept.select query.select.fields ∧
              joined.FilterReports query.condition filtered ∧
              ((query.tableReports (stored { store }) rows).flatten.filterMap
                Event.stageRows?).getLast? = some joined.length ∧
              logText store text =
                ⟨(query.tableReports (stored { store }) rows).flatten ++ filtered ++
                    kept.missingReports query.select.fields ++ [.queryExecuted selected.length],
                  .ok selected⟩) := by
  refine ⟨value_logText store text, fun h => ?_, fun position remainder h => ?_,
    fun query hquery => ?_⟩
  · rw [logText, h]
    rfl
  · rw [logText, h]
    rfl
  · have hlog : logText store text = logQuery { store } query := by rw [logText, hquery]
    rw [hlog]
    refine ⟨query.rowsAfter (stored { store }), ?_, fun hall => ?_⟩
    · intro before name after hnames hbefore hname
      refine ⟨makes_rowsAfter ?_, logQuery_of_missing hnames hbefore hname⟩
      rwa [hnames, List.take_left]
    · refine ⟨_, _, _, _, makes_rowsAfter ?_, rfl, rfl, rfl,
        Table.filterReports_restrictEvents _ _, getLast?_tableReports query _, ?_⟩
      · rwa [List.take_length]
      · rw [logQuery_of_exist hall]
        simp only [logOutput, Logged.after, Table.selectEvents_eq, List.append_assoc]

theorem parse_of_toOption {text : String} {query : Query}
    (h : (Query.parse text).toOption = some query) : Query.parse text = .ok query := by
  cases hparse : Query.parse text with
  | error cause => simp [hparse, Except.toOption] at h
  | ok other => simpa [hparse, Except.toOption] using h

/-- Of three tables the last one is missing, so the join with it and all that would follow go
unreported. Without that join there is a row whose value is ordered against one of another
type, and which lacks the selected column. -/
theorem logText_reports_three_tables :
    let store : String → Option Table := fun name =>
      if name = "a" then some [.ofPairs [("k", .null), ("x", .boolean true)]]
      else if name = "b" then some [.ofPairs [("k", .null)], .ofPairs []]
      else none
    logText store "SELECT a.y FROM a JOIN b ON b.k = a.k JOIN c ON c.k = b.k" =
        ⟨[.tableProjected "a" 1, .tableProjected "b" 2, .tableJoined "b" "a.k" "b.k" 1],
          .error (.tableNotFound "c")⟩ ∧
      logText store "SELECT a.y FROM a JOIN b ON b.k = a.k WHERE a.x < 'z'" =
        ⟨[.tableProjected "a" 1, .tableProjected "b" 2, .tableJoined "b" "a.k" "b.k" 1,
            .kindsMixed .boolean .string, .tableFiltered "a.x < \"z\"" 1 1, .columnMissing "a.y",
            .queryExecuted 1], .ok [.ofPairs [("a.y", .null)]]⟩ := by
  intro store
  constructor
  · obtain ⟨rows, hmissing, -⟩ := (logText_reports store
      "SELECT a.y FROM a JOIN b ON b.k = a.k JOIN c ON c.k = b.k").2.2.2
      ⟨⟨.fields [⟨"a", "y"⟩], "a"⟩, [⟨"b", ⟨"b", "k"⟩, ⟨"a", "k"⟩⟩,
        ⟨"c", ⟨"c", "k"⟩, ⟨"b", "k"⟩⟩], none⟩ (parse_of_toOption (by decide +kernel))
    obtain ⟨⟨hprojected, hjoined⟩, hlog⟩ := hmissing ["a", "b"] "c" [] rfl (by decide) (by decide)
    have hfirst := Except.ok.inj (hprojected (by decide))
    have hsecond := hjoined 0 (by decide) (by decide)
    rw [← hfirst] at hsecond
    replace hsecond := Except.ok.inj hsecond
    rw [hlog]
    simp only [Query.tableReports, joinReports, List.mapIdx_cons, ← hsecond]
    rfl
  · obtain ⟨rows, -, hall⟩ := (logText_reports store
      "SELECT a.y FROM a JOIN b ON b.k = a.k WHERE a.x < 'z'").2.2.2
      ⟨⟨.fields [⟨"a", "y"⟩], "a"⟩, [⟨"b", ⟨"b", "k"⟩, ⟨"a", "k"⟩⟩],
        some ⟨.field ⟨"a", "x"⟩, .less, .literal (.string "z")⟩⟩
      (parse_of_toOption (by decide +kernel))
    obtain ⟨joined, kept, selected, filtered, ⟨hprojected, hjoined⟩, rfl, rfl, rfl, hfiltered, -,
      hlog⟩ := hall (by decide)
    have hfirst := Except.ok.inj (hprojected (by decide))
    have hsecond := hjoined 0 (by decide) (by decide)
    rw [← hfirst] at hsecond
    have hrows : rows 1 =
        [.ofPairs [("a.k", .null), ("a.x", .boolean true), ("b.k", .null)]] :=
      (Except.ok.inj hsecond).symm.trans (by decide)
    have hmixes : Condition.Mixes ⟨.field ⟨"a", "x"⟩, .less, .literal (.string "z")⟩
        (.ofPairs [("a.k", .null), ("a.x", .boolean true), ("b.k", .null)]) (.boolean true)
        (.string "z") := ⟨by decide, by decide, by decide, by decide⟩
    rw [hlog]
    simp only [Query.tableReports, joinReports, List.mapIdx_cons, List.mapIdx_nil,
      List.length_cons, List.length_nil, Nat.zero_add, hrows] at hfiltered ⊢
    cases hfiltered with
    | some hreports =>
        cases hreports with
        | silent hnone _ => exact absurd hmixes (hnone _ _)
        | mixed hrow hrest =>
            cases hrest
            obtain rfl := Option.some.inj (hrow.leftValue.symm.trans hmixes.leftValue)
            obtain rfl := Option.some.inj (hrow.rightValue.symm.trans hmixes.rightValue)
            rfl

end Engine

end TableQuery
