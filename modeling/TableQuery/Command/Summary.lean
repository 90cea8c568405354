import TableQuery.Command.Check

/-!
Listing the tables of a database.
-/

namespace TableQuery

structure TableSummary where
  name : String
  rows : Nat
  columns : List String
deriving DecidableEq, Repr

/-- Every column of a table once, in the order of first occurrence: from the top
row down, each row from left to right. -/
def Table.columns (table : Table) : List String :=
  (table.flatMap Row.keys).eraseDups

def Table.summary (name : String) (table : Table) : TableSummary :=
  ⟨name, table.length, table.columns⟩

namespace TableSummary

/-- One line: the name, the number of rows and the columns. -/
def line (summary : TableSummary) : String :=
  summary.name ++ "\t" ++ toString summary.rows ++ " rows\t" ++
    String.intercalate ", " summary.columns

end TableSummary

def Database.summaries (db : Database) : List TableSummary :=
  db.toList.map fun (name, table) => table.summary name

def listTables (database : String) : Except CommandError (List TableSummary) :=
  match Database.ofText database with
  | .error cause => .error (.store cause)
  | .ok db => .ok db.summaries

end TableQuery
