import TableQuery.Database.Loading
import TableQuery.Event

/-!
The events of loading: one for each table, as soon as all its records are read.
-/

namespace TableQuery.Database

/-- The events of loading members up to the first that fails. -/
def memberEvents : List (String × Document) → List Event
  | [] => []
  | (name, document) :: members =>
    match loadTable name document with
    | .ok table => .tableLoaded name table.length :: memberEvents members
    | .error _ => []

def documentEvents : Document → List Event
  | .object members => memberEvents members
  | _ => []

def logText (text : String) : Logged (Except LoadError Database) where
  events := ((Document.read? text).map documentEvents).getD []
  value := ofText text

end TableQuery.Database
