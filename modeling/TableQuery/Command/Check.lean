import TableQuery.Database.Loading
import TableQuery.Engine

/-!
Checking a query: it is read, and unless only its syntax is asked for, it is run
against a database given as text. The query is read first, so a fault in it wins
over one in the database.
-/

namespace TableQuery

inductive CommandError
  | parse (cause : SyntaxError)
  | exec (cause : ExecError)
  | store (cause : LoadError)
  | missingFile
  | noDatabase
deriving DecidableEq, Repr

def CommandError.message : CommandError → String
  | parse cause => "Parse error: " ++ cause.message
  | exec cause => "Execution error: " ++ cause.message
  | store cause => "Database error: " ++ cause.message
  | missingFile => "IO error: No such file or directory (os error 2)"
  | noDatabase => "No database provided. Use --db or pipe JSON to stdin."

inductive CheckResult
  | parsed (query : Query)
  | rows (table : Table)
deriving DecidableEq, Repr

namespace CheckResult

def toDocument : CheckResult → Document
  | parsed query => query.toDocument
  | rows table => table.toDocument

def render (result : CheckResult) (pretty : Bool) : String :=
  result.toDocument.render (.ofPretty pretty)

end CheckResult

def Query.checkAgainst (query : Query) (database : String) : Except CommandError CheckResult :=
  match Database.ofText database with
  | .error cause => .error (.store cause)
  | .ok db =>
    match Engine.executeQuery { store := db } query with
    | .error cause => .error (.exec cause)
    | .ok table => .ok (.rows table)

def check (text : String) (database : Option String) (syntaxOnly : Bool) :
    Except CommandError CheckResult :=
  match Query.parse text with
  | .error cause => .error (.parse cause)
  | .ok query =>
    if syntaxOnly then
      .ok (.parsed query)
    else
      match database with
      | none => .error .noDatabase
      | some database => query.checkAgainst database

end TableQuery
