import TableQuery.Binary64.Display
import TableQuery.Binary64.Rounding

/-!
The scalar values that cells of a table hold, with two notions of sameness kept
apart. Structural equality is Lean's own and tells all values apart. The
equality and the order that queries see go through numbers as numbers: the two
zeros are equal there, and NaN equals nothing and is not ordered.
-/

namespace TableQuery

/-- Tables are flat, so a value is never a list or a record, and every number is
a floating point number. -/
inductive Value
  | null
  | boolean (value : Bool)
  | number (value : Binary64)
  | string (value : String)
deriving DecidableEq, Repr, Inhabited

/-- The types of values, in the order in which values of different types
compare. -/
inductive Kind
  | null
  | boolean
  | number
  | string
deriving DecidableEq, Repr

namespace Kind

def rank : Kind → Nat
  | null => 0
  | boolean => 1
  | number => 2
  | string => 3

def name : Kind → String
  | null => "null"
  | boolean => "boolean"
  | number => "number"
  | string => "string"

end Kind

namespace Value

def kind : Value → Kind
  | null => .null
  | boolean _ => .boolean
  | number _ => .number
  | string _ => .string

def sameKind (a b : Value) : Bool :=
  a.kind = b.kind

def isNaN : Value → Bool
  | number n => n.isNaN
  | _ => false

/-- Values of one type compare by their contents, strings by code points, and
values of different types by their types. Only a NaN makes two values
incomparable, and only with another number. -/
def order? : Value → Value → Option Ordering
  | null, null => some .eq
  | boolean a, boolean b => some (compare a b)
  | number a, number b => a.order? b
  | string a, string b => some (compare a b)
  | a, b => some (compare a.kind.rank b.kind.rank)

/-- The equality of queries: same type and equal contents. -/
def equals : Value → Value → Bool
  | null, null => true
  | boolean a, boolean b => a == b
  | number a, number b => a.equals b
  | string a, string b => a == b
  | _, _ => false

def ofInt (n : Int) : Value :=
  number (Binary64.ofInt n)

/-- The bare contents: strings are not quoted. -/
def display : Value → String
  | null => "null"
  | boolean true => "true"
  | boolean false => "false"
  | number n => n.display
  | string s => s

end Value

end TableQuery
