import TableQuery.Dialect.Literal
import TableQuery.Pattern
import TableQuery.Query

/-!
What the rules of the dialect produce on the way to a query. A rule that is a
sequence of parts yields the list of what its parts yield; the functions below
build the parts of the syntax tree out of such lists. They look at the lengths
and kinds that they expect and refuse everything else.
-/

namespace TableQuery.Dialect

inductive Phrase
  | nothing
  | text (value : String)
  | list (items : List Phrase)
  | literal (value : Value)
  | field (ref : FieldRef)
  | fields (list : FieldList)
  | equality (left right : FieldRef)
  | operator (op : CompareOp)
  | select (clause : Select)
  | join (clause : Join)
  | condition (value : Condition)
  | query (value : Query)
deriving Inhabited

instance : Capture Phrase where
  text := .text
  list := .list
  nothing := .nothing

namespace Phrase

def toString? : Phrase → Option Phrase
  | text quoted => (stringValue? quoted.toList).map fun s => literal (.string s)
  | _ => none

/-- The only one that refuses texts that its rule matches: those without a
numeric value. -/
def toNumber? : Phrase → Option Phrase
  | text digits => (numericPrefix? digits.toList).map fun n => literal (.number n)
  | _ => none

def toBoolean? : Phrase → Option Phrase
  | text keyword =>
    some (literal (.boolean (keyword.toList.map Char.toLower = "true".toList)))
  | _ => none

def toNull? (_ : Phrase) : Option Phrase :=
  some (literal .null)

def toField? : Phrase → Option Phrase
  | list [text table, _, text column] => some (field ⟨table, column⟩)
  | _ => none

def toWildcard? (_ : Phrase) : Option Phrase :=
  some (fields .wildcard)

def field? : Phrase → Option FieldRef
  | field ref => some ref
  | _ => none

def toFieldList? : Phrase → Option Phrase
  | list items => (items.mapM field?).map fun refs => fields (.fields refs)
  | _ => none

def toEquality? : Phrase → Option Phrase
  | list [field left, _, _, _, field right] => some (equality left right)
  | _ => none

def toOperator? : Phrase → Option Phrase
  | text symbol => (CompareOp.ofSymbol? symbol).map operator
  | _ => none

def operand? : Phrase → Option Operand
  | field ref => some (.field ref)
  | literal value => some (.literal value)
  | _ => none

def toSelect? : Phrase → Option Phrase
  | list [_, _, fields refs, _, _, _, text source, _] => some (select ⟨refs, source⟩)
  | _ => none

def toJoin? : Phrase → Option Phrase
  | list [_, _, text table, _, _, _, equality left right, _] => some (join ⟨table, left, right⟩)
  | _ => none

def toCondition? : Phrase → Option Phrase
  | list [left, _, operator op, _, right] => do
    let left ← left.operand?
    let right ← right.operand?
    some (condition ⟨left, op, right⟩)
  | _ => none

def toWhere? : Phrase → Option Phrase
  | list [_, _, condition value, _] => some (condition value)
  | _ => none

def join? : Phrase → Option Join
  | join clause => some clause
  | _ => none

def joins? : Phrase → Option (List Join)
  | nothing => some []
  | list items => items.mapM join?
  | _ => none

def condition? : Phrase → Option (Option Condition)
  | nothing => some none
  | condition value => some (some value)
  | _ => none

def toQuery? : Phrase → Option Phrase
  | list [select clause, _, joining, restriction, _] => do
    let joins ← joining.joins?
    let condition ← restriction.condition?
    some (query ⟨clause, joins, condition⟩)
  | _ => none

end Phrase

end TableQuery.Dialect
