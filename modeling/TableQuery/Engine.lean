import TableQuery.Database
import TableQuery.Pipeline
import TableQuery.Query.Parse

/-!
Running queries against a store of tables. An engine never writes to its store
and keeps nothing between queries. It fails before it looks at any table if the
text is not a query, and with the name of the first missing table otherwise.
-/

namespace TableQuery

class Store (σ : Type) where
  table? : σ → String → Option Table

instance : Store Database := ⟨Database.get?⟩

instance : Store (String → Option Table) := ⟨fun lookup => lookup⟩

inductive ExecError
  | invalidQuery (cause : SyntaxError)
  | tableNotFound (table : String)
deriving DecidableEq, Repr

def ExecError.message : ExecError → String
  | invalidQuery cause => cause.message
  | tableNotFound table => "Table " ++ table ++ " does not exist"

/-- A store together with the reader of query texts. -/
structure Engine (σ : Type) where
  store : σ
  parser : String → Except SyntaxError Query := Query.parse

namespace Engine

variable {σ : Type}

def withStore (engine : Engine σ) (store : σ) : Engine σ :=
  { engine with store }

variable [Store σ]

def getTable? (engine : Engine σ) (name : String) : Option Table :=
  Store.table? engine.store name

def project (engine : Engine σ) (name : String) : Except ExecError Table :=
  match engine.getTable? name with
  | some table => .ok (table.qualify name)
  | none => .error (.tableNotFound name)

def join (engine : Engine σ) (left : Table) (join : Join) : Except ExecError Table := do
  let right ← engine.project join.table
  .ok (left.joinOn right join.keys.1 join.keys.2)

def executeQuery (engine : Engine σ) (query : Query) : Except ExecError Table := do
  let projected ← engine.project query.select.source
  let joined ← query.joins.foldlM engine.join projected
  .ok ((joined.restrict query.condition).select query.select.fields)

def execute (engine : Engine σ) (text : String) : Except ExecError Table :=
  match engine.parser text with
  | .ok query => engine.executeQuery query
  | .error cause => .error (.invalidQuery cause)

end Engine

end TableQuery
