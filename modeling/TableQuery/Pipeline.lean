import TableQuery.Query
import TableQuery.Row

/-!
The stages of a query on tables. A table enters with its columns qualified by
its name, joins put rows of several tables side by side, the condition drops
rows and the selection drops columns. Every stage is a function from tables to
tables and keeps the order of rows.
-/

namespace TableQuery

/-- A column that is missing equals only another missing one. -/
def equalCells : Option Value → Option Value → Bool
  | none, none => true
  | some a, some b => a.equals b
  | _, _ => false

/-- The row with every key qualified by a table name. -/
def Row.qualify (table : String) (row : Row) : Row :=
  Row.ofPairs (row.columns.map fun (column, value) => (qualifiedKey table column, value))

def Table.qualify (name : String) (table : Table) : Table :=
  table.map (Row.qualify name)

/-- The left row followed by the columns of the right row that it does not have. -/
def Row.merge (left right : Row) : Row :=
  right.columns.foldl (fun merged (key, value) =>
    if merged.contains key then merged else merged.insert key value) left

/-- The keys on which a join compares, for the rows so far and for the rows of
the joined table. If the side written first names the joined table, it is the
side of that table; otherwise the side written second is. -/
def Join.keys (join : Join) : String × String :=
  if join.table = join.left.table then (join.right.key, join.left.key)
  else (join.left.key, join.right.key)

/-- For each left row in order, one merged row for each right row that has an
equal cell, in order. -/
def Table.joinOn (left right : Table) (leftKey rightKey : String) : Table :=
  left.flatMap fun l =>
    (right.filter fun r => equalCells (r.get? rightKey) (l.get? leftKey)).map l.merge

def Operand.resolve (row : Row) : Operand → Option Value
  | field ref => row.get? ref.key
  | literal value => some value

/-- Whether a row satisfies a condition. The ordering operators need two values
that can be compared; the order of values also compares different types. -/
def Condition.holds (condition : Condition) (row : Row) : Bool :=
  let left := condition.left.resolve row
  let right := condition.right.resolve row
  match condition.operator with
  | .equal => equalCells left right
  | .notEqual => !equalCells left right
  | op => ((left.bind fun a => right.bind fun b => a.order? b).map op.holds).getD false

def Table.restrict (table : Table) : Option Condition → Table
  | none => table
  | some condition => table.filter condition.holds

/-- The requested columns in the requested order; one that the row lacks comes
out as null. -/
def Row.pick (row : Row) (keys : List String) : Row :=
  Row.ofPairs (keys.map fun key => (key, (row.get? key).getD .null))

def Table.select (table : Table) : FieldList → Table
  | .wildcard => table
  | .fields refs => table.map fun row => row.pick (refs.map FieldRef.key)

end TableQuery
