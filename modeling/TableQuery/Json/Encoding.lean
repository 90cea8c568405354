import TableQuery.Json.Printer
import TableQuery.Query
import TableQuery.Row

/-!
Values, rows and queries as documents. Nothing marks the kind of an operand or
of a field list in a document: a column is an object, and a literal never is;
all columns are a string, and a list of columns is an array.
-/

namespace TableQuery

def Value.toDocument : Value → Document
  | null => .null
  | boolean b => .boolean b
  | number n => .number n
  | string s => .string s

def Value.ofDocument? : Document → Option Value
  | .null => some null
  | .boolean b => some (boolean b)
  | .number n => some (number n)
  | .string s => some (string s)
  | .array _ | .object _ => none

/-- Every column once, in the order of the row. -/
def Row.toDocument (row : Row) : Document :=
  .object (row.columns.map fun (key, value) => (key, value.toDocument))

def Table.toDocument (table : Table) : Document :=
  .array (table.map Row.toDocument)

def FieldRef.toDocument (field : FieldRef) : Document :=
  .object [("table", .string field.table), ("column", .string field.column)]

def CompareOp.toDocument (op : CompareOp) : Document :=
  .string op.symbol

def Operand.toDocument : Operand → Document
  | field ref => ref.toDocument
  | literal value => value.toDocument

def Condition.toDocument (condition : Condition) : Document :=
  .object [
    ("left", condition.left.toDocument),
    ("right", condition.right.toDocument),
    ("operator", condition.operator.toDocument)]

def FieldList.toDocument : FieldList → Document
  | wildcard => .string "*"
  | fields refs => .array (refs.map FieldRef.toDocument)

def Select.toDocument (clause : Select) : Document :=
  .object [("fields", clause.fields.toDocument), ("from", .string clause.source)]

def Join.toDocument (clause : Join) : Document :=
  .object [
    ("table", .string clause.table),
    ("fields", .array [clause.left.toDocument, clause.right.toDocument])]

def Query.toDocument (query : Query) : Document :=
  .object [
    ("select", query.select.toDocument),
    ("join", .array (query.joins.map Join.toDocument)),
    ("where", (query.condition.map Condition.toDocument).getD .null)]

end TableQuery
