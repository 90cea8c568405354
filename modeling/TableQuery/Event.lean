import TableQuery.Text.Quoted
import TableQuery.Query

/-!
What loading and running report besides their result. An event says which step
was taken or skipped and how many rows there were; a warning tells of something
that a query asked for and did not get.
-/

namespace TableQuery

inductive Event
  | tableLoaded (table : String) (rows : Nat)
  | queryUnmatched (text : String)
  /-- A text goes on after its query. -/
  | inputLeftOver (text : String) (position : Nat)
  | tableProjected (table : String) (rows : Nat)
  | tableJoined (table leftKey rightKey : String) (rows : Nat)
  | kindsMixed (left right : Kind)
  | tableFiltered (condition : String) (before after : Nat)
  | columnMissing (column : String)
  | queryExecuted (rows : Nat)
deriving DecidableEq, Repr

namespace Event

inductive Level
  | debug
  | warn
deriving DecidableEq, Repr

def Level.name : Level → String
  | debug => "DEBUG"
  | warn => "WARN"

def level : Event → Level
  | columnMissing _ => .warn
  | _ => .debug

def message : Event → String
  | tableLoaded .. => "loaded table"
  | queryUnmatched _ => "query does not match the grammar"
  | inputLeftOver .. => "unparsed input after query"
  | tableProjected .. => "projected table"
  | tableJoined .. => "joined table"
  | kindsMixed .. => "ordering values of different types"
  | tableFiltered .. => "filtered table"
  | columnMissing _ => "selected column missing from row"
  | queryExecuted _ => "query executed"

/-- What an event tells under a name: a number or a text. -/
inductive Detail
  | count (value : Nat)
  | text (value : String)
deriving DecidableEq, Repr

def details : Event → List (String × Detail)
  | tableLoaded table rows => [("table", .text table), ("rows", .count rows)]
  | queryUnmatched text => [("query", .text text)]
  | inputLeftOver text position => [("query", .text text), ("position", .count position)]
  | tableProjected table rows => [("table", .text table), ("rows", .count rows)]
  | tableJoined table leftKey rightKey rows =>
    [("table", .text table), ("left_key", .text leftKey), ("right_key", .text rightKey),
      ("rows", .count rows)]
  | kindsMixed left right => [("left", .text left.name), ("right", .text right.name)]
  | tableFiltered condition before after =>
    [("condition", .text condition), ("before", .count before), ("after", .count after)]
  | columnMissing column => [("column", .text column)]
  | queryExecuted rows => [("rows", .count rows)]

end Event

/-- A column by its key, a string in quotes and another literal bare. -/
def Operand.describe : Operand → String
  | field ref => ref.key
  | literal (.string s) => Text.quoted s
  | literal value => value.display

def Condition.describe (condition : Condition) : String :=
  condition.left.describe ++ " " ++ condition.operator.symbol ++ " " ++ condition.right.describe

/-- A result together with the events on the way to it. -/
structure Logged (α : Type) where
  events : List Event
  value : α

def Logged.after {α : Type} (events : List Event) (run : Logged α) : Logged α :=
  ⟨events ++ run.events, run.value⟩

end TableQuery
