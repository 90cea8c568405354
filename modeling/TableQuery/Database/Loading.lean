import TableQuery.Database
import TableQuery.Json.Encoding
import TableQuery.Json.Reader

/-!
Loading a database from a document: an object whose members are the tables, each
an array of flat records. The text is read to its end before any table is looked
at, and then members, records and fields are visited in the order in which they
stand in the document, so the fault that is reported is the first one.
-/

namespace TableQuery

inductive LoadError
  | malformed
  | notAnObject
  | notATable (table : String)
  | notARecord (table : String) (index : Nat)
  | nonScalar (table column : String)
deriving DecidableEq, Repr

def LoadError.message : LoadError → String
  | malformed => "Invalid JSON"
  | notAnObject => "Database must be a JSON object mapping table names to arrays of records"
  | notATable table => "Table '" ++ table ++ "' must be an array of records"
  | notARecord table index =>
    "Row " ++ toString index ++ " of table '" ++ table ++ "' is not an object"
  | nonScalar table column =>
    "Column '" ++ column ++ "' of table '" ++ table ++ "' holds a nested array or object"

namespace Database

def loadField (table : String) (member : String × Document) :
    Except LoadError (String × Value) :=
  match Value.ofDocument? member.2 with
  | some value => .ok (member.1, value)
  | none => .error (.nonScalar table member.1)

def loadRecord (table : String) (index : Nat) : Document → Except LoadError Row
  | .object members => (members.mapM (loadField table)).map Row.ofPairs
  | _ => .error (.notARecord table index)

def loadRecords (table : String) : Nat → List Document → Except LoadError Table
  | _, [] => .ok []
  | index, record :: records => do
    let row ← loadRecord table index record
    let rows ← loadRecords table (index + 1) records
    .ok (row :: rows)

def loadTable (table : String) : Document → Except LoadError Table
  | .array records => loadRecords table 0 records
  | _ => .error (.notATable table)

def loadMember (member : String × Document) : Except LoadError (String × Table) :=
  (loadTable member.1 member.2).map (member.1, ·)

def ofDocument : Document → Except LoadError Database
  | .object members => (members.mapM loadMember).map ofTables
  | _ => .error .notAnObject

def ofText (text : String) : Except LoadError Database :=
  match Document.read? text with
  | some document => ofDocument document
  | none => .error .malformed

/-- Loads from bytes, which must be well-formed UTF-8. -/
def ofBytes (bytes : ByteArray) : Except LoadError Database :=
  match String.fromUTF8? bytes with
  | some text => ofText text
  | none => .error .malformed

end Database

end TableQuery
