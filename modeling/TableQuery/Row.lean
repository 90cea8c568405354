import TableQuery.Keyed
import TableQuery.Value

/-!
Records: maps from column keys to values that remember the order in which their
keys were first inserted. A table is a list of them, in iteration order, and the
rows of one table need not have the same columns.
-/

namespace TableQuery

/-- The columns of a row have distinct keys. -/
@[ext] structure Row where
  columns : List (String × Value)
  nodup_keys : (Keyed.keys columns).Nodup
deriving DecidableEq, Repr

abbrev Table := List Row

namespace Row

def empty : Row := ⟨[], by simp [Keyed.keys]⟩

instance : Inhabited Row := ⟨empty⟩

def get? (row : Row) (key : String) : Option Value :=
  row.columns.lookup key

def contains (row : Row) (key : String) : Bool :=
  row.columns.any (·.1 = key)

def insert (row : Row) (key : String) (value : Value) : Row :=
  ⟨Keyed.insert key value row.columns, Keyed.nodup_keys_insert row.nodup_keys⟩

/-- Inserts, and tells which value the key had before. -/
def getThenInsert? (row : Row) (key : String) (value : Value) : Option Value × Row :=
  ((Keyed.exchange key value row.columns).1,
    ⟨(Keyed.exchange key value row.columns).2, by
      rw [Keyed.exchange_eq]
      exact Keyed.nodup_keys_insert row.nodup_keys⟩)

/-- A repeated key keeps its first place and gets its last value. -/
def ofPairs (pairs : List (String × Value)) : Row :=
  ⟨Keyed.ofPairs pairs, Keyed.nodup_keys_ofPairs pairs⟩

def keys (row : Row) : List String :=
  Keyed.keys row.columns

def size (row : Row) : Nat :=
  row.columns.length

def isEmpty (row : Row) : Bool :=
  row.columns.isEmpty

/-- The equality of queries on rows: the same columns in the same order with
equal values. -/
def equals (a b : Row) : Bool :=
  a.columns.isEqv b.columns fun x y => x.1 == y.1 && x.2.equals y.2

end Row

def Table.equals (a b : Table) : Bool :=
  a.isEqv b Row.equals

end TableQuery
