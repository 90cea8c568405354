import TableQuery.Pattern

/-!
The plainest values that patterns can produce: text, lists of values, or
nothing. They serve grammars that have no syntax tree of their own.

The functions on them are no part of any grammar here. They are for programs
that try patterns and need something to apply to what is matched.
-/

namespace TableQuery

inductive Captured
  | nothing
  | text (value : String)
  | list (items : List Captured)
deriving Inhabited

instance : Capture Captured where
  text := .text
  list := .list
  nothing := .nothing

namespace Captured

/-- Puts text into upper case, ASCII letters only. -/
def upper : Captured → Captured
  | text value => text (String.ofList (value.toList.map Char.toUpper))
  | other => other

def first? : Captured → Option Captured
  | list (item :: _) => some item
  | _ => none

end Captured

end TableQuery
