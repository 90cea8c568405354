import TableQuery.Engine
import TableQuery.Event

/-!
The events of running a query. The run is the one of the engine; each stage adds
what it has to tell about the tables that it took and made. That reporting does
not change the result is stated at the end.
-/

namespace TableQuery

def SyntaxError.event (text : String) : SyntaxError → Event
  | invalidQuery => .queryUnmatched text
  | trailingInput position _ => .inputLeftOver text position

/-- The event of ordering values of different types, where checking a condition on
a row does so. Equality never orders, and a missing column has no type. -/
def Condition.mixedKinds? (condition : Condition) (row : Row) : Option Event :=
  match condition.operator with
  | .equal | .notEqual => none
  | _ =>
    (condition.left.resolve row).bind fun left =>
      (condition.right.resolve row).bind fun right =>
        if left.sameKind right then none else some (.kindsMixed left.kind right.kind)

/-- The events of the filter: what each row gives occasion to, and the counts. -/
def Table.restrictEvents (table : Table) : Option Condition → List Event
  | none => []
  | some condition =>
    table.filterMap condition.mixedKinds? ++
      [.tableFiltered condition.describe table.length (table.restrict (some condition)).length]

/-- The events of the selection: every requested column that a row lacks, row by
row and in the requested order. -/
def Table.selectEvents (table : Table) : FieldList → List Event
  | .wildcard => []
  | .fields refs =>
    table.flatMap fun row =>
      (refs.map FieldRef.key).filterMap fun key =>
        if row.contains key then none else some (.columnMissing key)

namespace Engine

variable {σ : Type} [Store σ]

def logProject (engine : Engine σ) (name : String) : Logged (Except ExecError Table) :=
  match engine.project name with
  | .ok table => ⟨[.tableProjected name table.length], .ok table⟩
  | .error error => ⟨[], .error error⟩

def logJoin (engine : Engine σ) (left : Table) (join : Join) : Logged (Except ExecError Table) :=
  let right := engine.logProject join.table
  .after right.events <|
    match engine.join left join with
    | .ok joined => ⟨[.tableJoined join.table join.keys.1 join.keys.2 joined.length], .ok joined⟩
    | .error error => ⟨[], .error error⟩

def logJoins (engine : Engine σ) : Table → List Join → Logged (Except ExecError Table)
  | left, [] => ⟨[], .ok left⟩
  | left, join :: joins =>
    let first := engine.logJoin left join
    .after first.events <|
      match first.value with
      | .ok joined => engine.logJoins joined joins
      | .error error => ⟨[], .error error⟩

def logOutput (table : Table) (query : Query) : Logged (Except ExecError Table) :=
  let restricted := table.restrict query.condition
  let selected := restricted.select query.select.fields
  ⟨table.restrictEvents query.condition ++ restricted.selectEvents query.select.fields ++
    [.queryExecuted selected.length], .ok selected⟩

def logQuery (engine : Engine σ) (query : Query) : Logged (Except ExecError Table) :=
  let projected := engine.logProject query.select.source
  .after projected.events <|
    match projected.value with
    | .error error => ⟨[], .error error⟩
    | .ok table =>
      let joined := engine.logJoins table query.joins
      .after joined.events <|
        match joined.value with
        | .error error => ⟨[], .error error⟩
        | .ok rows => logOutput rows query

def logText (store : σ) (text : String) : Logged (Except ExecError Table) :=
  match Query.parse text with
  | .ok query => logQuery { store } query
  | .error cause => ⟨[cause.event text], .error (.invalidQuery cause)⟩

@[simp] theorem value_logProject (engine : Engine σ) (name : String) :
    (engine.logProject name).value = engine.project name := by
  unfold logProject
  split <;> simp_all

@[simp] theorem value_logJoin (engine : Engine σ) (left : Table) (join : Join) :
    (engine.logJoin left join).value = engine.join left join := by
  simp only [logJoin, Logged.after]
  split <;> simp_all

@[simp] theorem value_logJoins (engine : Engine σ) (left : Table) (joins : List Join) :
    (engine.logJoins left joins).value = joins.foldlM engine.join left := by
  induction joins generalizing left with
  | nil => rfl
  | cons join joins ih =>
      simp only [logJoins, Logged.after, value_logJoin, List.foldlM_cons]
      cases engine.join left join with
      | ok joined => exact ih joined
      | error error => rfl

@[simp] theorem value_logQuery (engine : Engine σ) (query : Query) :
    (engine.logQuery query).value = engine.executeQuery query := by
  simp only [logQuery, executeQuery, Logged.after, value_logProject]
  cases engine.project query.select.source with
  | error error => rfl
  | ok table =>
      simp only [value_logJoins]
      change _ = (query.joins.foldlM engine.join table).bind _
      cases query.joins.foldlM engine.join table with
      | error error => rfl
      | ok rows => rfl

theorem value_logText (store : σ) (text : String) :
    (logText store text).value = execute { store } text := by
  simp only [logText, execute]
  cases Query.parse text with
  | error cause => rfl
  | ok query => simp

end Engine

end TableQuery
