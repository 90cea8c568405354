import TableQuery.Row

/-!
Sets of named tables. A database keeps its tables sorted by name, by the code
points of the names, so that two databases with the same tables are the same
list whatever the history that led to them.
-/

namespace TableQuery

/-- The names of a database are strictly increasing. -/
@[ext] structure Database where
  tables : List (String × Table)
  sorted : tables.Pairwise fun a b => a.1 < b.1

namespace Database

def empty : Database := ⟨[], List.Pairwise.nil⟩

instance : Inhabited Database := ⟨empty⟩

/-- Puts a table in its place among sorted ones, instead of the one of the same
name if there is one. -/
def insertSorted (name : String) (table : Table) : List (String × Table) → List (String × Table)
  | [] => [(name, table)]
  | (n, t) :: rest =>
    if name < n then (name, table) :: (n, t) :: rest
    else if name = n then (name, table) :: rest
    else (n, t) :: insertSorted name table rest

theorem mem_insertSorted {name : String} {table : Table} {tables : List (String × Table)}
    {entry : String × Table} (h : entry ∈ insertSorted name table tables) :
    entry = (name, table) ∨ entry ∈ tables := by
  induction tables with
  | nil => simpa [insertSorted] using h
  | cons first rest ih =>
      obtain ⟨n, t⟩ := first
      simp only [insertSorted] at h
      split at h
      · simpa using h
      · split at h
        · rcases List.mem_cons.1 h with h | h
          · exact .inl h
          · exact .inr (List.mem_cons_of_mem _ h)
        · rcases List.mem_cons.1 h with h | h
          · exact .inr (h ▸ List.mem_cons_self)
          · rcases ih h with h | h
            · exact .inl h
            · exact .inr (List.mem_cons_of_mem _ h)

theorem sorted_insertSorted {name : String} {table : Table} {tables : List (String × Table)}
    (h : tables.Pairwise fun a b => a.1 < b.1) :
    (insertSorted name table tables).Pairwise fun a b => a.1 < b.1 := by
  induction tables with
  | nil => simp [insertSorted]
  | cons first rest ih =>
      obtain ⟨n, t⟩ := first
      obtain ⟨hn, hrest⟩ := List.pairwise_cons.1 h
      simp only [insertSorted]
      split
      · rename_i hlt
        refine List.pairwise_cons.2 ⟨?_, h⟩
        intro entry hentry
        rcases List.mem_cons.1 hentry with rfl | hentry
        · exact hlt
        · exact String.lt_trans hlt (hn entry hentry)
      · rename_i hnotlt
        split
        · rename_i heq
          exact List.pairwise_cons.2 ⟨heq ▸ hn, hrest⟩
        · rename_i hne
          refine List.pairwise_cons.2 ⟨?_, ih hrest⟩
          intro entry hentry
          rcases mem_insertSorted hentry with rfl | hentry
          · refine Decidable.byContradiction fun hge => hne ?_
            exact String.le_antisymm (String.not_lt.1 hge) (String.not_lt.1 hnotlt)
          · exact hn entry hentry

def insert (db : Database) (name : String) (table : Table) : Database :=
  ⟨insertSorted name table db.tables, sorted_insertSorted db.sorted⟩

def erase (db : Database) (name : String) : Database :=
  ⟨db.tables.filter fun entry => entry.1 ≠ name, db.sorted.filter _⟩

def ofTables (tables : List (String × Table)) : Database :=
  tables.foldl (fun db entry => db.insert entry.1 entry.2) empty

def get? (db : Database) (name : String) : Option Table :=
  db.tables.lookup name

/-- Inserts, and tells which table had the name before. -/
def getThenInsert? (db : Database) (name : String) (table : Table) : Option Table × Database :=
  (db.get? name, db.insert name table)

/-- Erases, and tells which table had the name before. -/
def getThenErase? (db : Database) (name : String) : Option Table × Database :=
  (db.get? name, db.erase name)

def names (db : Database) : List String :=
  db.tables.map (·.1)

def toList (db : Database) : List (String × Table) :=
  db.tables

def size (db : Database) : Nat :=
  db.tables.length

def isEmpty (db : Database) : Bool :=
  db.tables.isEmpty

def equals (a b : Database) : Bool :=
  a.tables.isEqv b.tables fun x y => x.1 == y.1 && x.2.equals y.2

end Database

end TableQuery
