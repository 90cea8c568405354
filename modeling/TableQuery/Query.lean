import TableQuery.Value

/-!
Queries as syntax trees. A query selects columns from one table, joins further
tables in order, and keeps the rows that satisfy at most one comparison. Columns
are always named together with their table.
-/

namespace TableQuery

/-- The key of a column where the columns of several tables meet. -/
def qualifiedKey (table column : String) : String :=
  table ++ "." ++ column

structure FieldRef where
  table : String
  column : String
deriving DecidableEq, Repr, Inhabited

def FieldRef.key (field : FieldRef) : String :=
  qualifiedKey field.table field.column

inductive CompareOp
  | equal
  | notEqual
  | less
  | greater
  | lessOrEqual
  | greaterOrEqual
deriving DecidableEq, Repr, Inhabited

namespace CompareOp

def symbol : CompareOp → String
  | equal => "="
  | notEqual => "<>"
  | less => "<"
  | greater => ">"
  | lessOrEqual => "<="
  | greaterOrEqual => ">="

def ofSymbol? : String → Option CompareOp
  | "=" => some equal
  | "<>" => some notEqual
  | "<" => some less
  | ">" => some greater
  | "<=" => some lessOrEqual
  | ">=" => some greaterOrEqual
  | _ => none

/-- Whether two operands in the given order satisfy the operator. -/
def holds : CompareOp → Ordering → Bool
  | equal, order => order == .eq
  | notEqual, order => order != .eq
  | less, order => order == .lt
  | greater, order => order == .gt
  | lessOrEqual, order => order != .gt
  | greaterOrEqual, order => order != .lt

end CompareOp

inductive Operand
  | field (ref : FieldRef)
  | literal (value : Value)
deriving DecidableEq, Repr, Inhabited

structure Condition where
  left : Operand
  operator : CompareOp
  right : Operand
deriving DecidableEq, Repr, Inhabited

/-- The columns that a query asks for: all, or these in this order. -/
inductive FieldList
  | wildcard
  | fields (refs : List FieldRef)
deriving DecidableEq, Repr, Inhabited

structure Select where
  fields : FieldList
  source : String
deriving DecidableEq, Repr, Inhabited

/-- A joined table with the two sides of its equality as they were written. -/
structure Join where
  table : String
  left : FieldRef
  right : FieldRef
deriving DecidableEq, Repr, Inhabited

structure Query where
  select : Select
  joins : List Join
  condition : Option Condition
deriving DecidableEq, Repr, Inhabited

end TableQuery
