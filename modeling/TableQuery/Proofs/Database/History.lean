import Mathlib.Data.List.Forall2
import TableQuery.Proofs.Database.RoundTrip
import TableQuery.Proofs.Text.CodePoints

/-!
Databases over any history. Whatever tables were put into a database, taken out again or
loaded at once, what it holds under a name is decided by the last change of that name.
The tables are kept in the order of their names, so that their names and their contents
determine them, and two histories that leave the same tables leave the same database.
-/

namespace TableQuery

/-- A change of a database: a table is put under a name, or the name is given up. -/
inductive Change
  | insertion (name : String) (table : Table)
  | erasure (name : String)

namespace Change

def name : Change → String
  | insertion name _ => name
  | erasure name => name

def table? : Change → Option Table
  | insertion _ table => some table
  | erasure _ => none

/-- What a history leaves under a name: what the last change of the name put there. -/
def left? (history : List Change) (name : String) : Option Table :=
  (history.reverse.find? (·.name = name)).bind table?

def apply (db : Database) : Change → Database
  | insertion name table => db.insert name table
  | erasure name => db.erase name

def insertions (tables : List (String × Table)) : List Change :=
  tables.map fun (name, table) => insertion name table

theorem left?_concat (history : List Change) (change : Change) (name : String) :
    left? (history ++ [change]) name =
      if name = change.name then change.table? else left? history name := by
  rw [left?, List.reverse_concat, List.find?_cons]
  by_cases hname : name = change.name
  · simp [hname]
  · simp [hname, Ne.symm hname, left?]

end Change

namespace Database

open Change (insertions left?)

/-- The database comes about by these changes, those that it is made of at once and those
that are made later. A document makes the changes of its members, in their order. -/
inductive Grown : List Change → Database → Prop
  | empty : Grown [] .empty
  | ofTables (tables : List (String × Table)) : Grown (insertions tables) (.ofTables tables)
  | loaded {tables : List (String × Table)} {db : Database} :
      ofDocument (documentOf tables) = .ok db → Grown (insertions tables) db
  | insert {history : List Change} {db : Database} (name : String) (table : Table) :
      Grown history db →
      Grown (history ++ [.insertion name table]) (db.getThenInsert? name table).2
  | erase {history : List Change} {db : Database} (name : String) :
      Grown history db → Grown (history ++ [.erasure name]) (db.getThenErase? name).2

theorem lookup_insertSorted (name : String) (table : Table) (tables : List (String × Table))
    (n : String) :
    (insertSorted name table tables).lookup n =
      if n = name then some table else tables.lookup n := by
  induction tables with
  | nil => exact Keyed.lookup_cons name table [] n
  | cons first tables ih =>
      obtain ⟨m, t⟩ := first
      simp only [insertSorted]
      split
      · exact Keyed.lookup_cons name table _ n
      · split
        · rename_i hname
          rw [Keyed.lookup_cons, Keyed.lookup_cons, hname]
          split <;> rfl
        · rename_i hname
          rw [Keyed.lookup_cons, Keyed.lookup_cons, ih]
          by_cases hn : n = m
          · rw [if_pos hn, if_pos hn, if_neg (hn ▸ Ne.symm hname)]
          · rw [if_neg hn, if_neg hn]

theorem get?_apply (db : Database) (change : Change) (n : String) :
    (change.apply db).get? n = if n = change.name then change.table? else db.get? n := by
  cases change with
  | insertion name table => exact lookup_insertSorted name table db.tables n
  | erasure name =>
      have hfilter := Keyed.lookup_filter (fun m => decide (m ≠ name)) db.tables n
      change (db.tables.filter fun entry => decide (entry.1 ≠ name)).lookup n = _
      rw [hfilter]
      by_cases hn : n = name <;> simp [hn, Change.name, Change.table?, get?]

/-- What a change answers and leaves: the table that had the name before, and the same
tables but for the one under the name. -/
structure Replaces (db : Database) (name : String) (table? : Option Table)
    (result : Option Table × Database) : Prop where
  former : result.1 = db.get? name
  get? : result.2.get? name = table?
  others : ∀ n, n ≠ name → result.2.get? n = db.get? n

theorem replaces_apply (db : Database) (change : Change) :
    db.Replaces change.name change.table? (db.get? change.name, change.apply db) := by
  refine ⟨rfl, ?_, fun n hn => ?_⟩
  · rw [get?_apply, if_pos rfl]
  · rw [get?_apply, if_neg hn]

/-! ### Histories -/

theorem ofDocument_documentOf (tables : List (String × Table)) :
    ofDocument (documentOf tables) = .ok (ofTables tables) := by
  have hmember : ∀ member ∈ tables.map (fun (name, table) => (name, table.toDocument)),
      ∀ entry : String × Table,
        loadMember member = .ok entry ↔ id member = (entry.1, entry.2.toDocument) := by
    intro member hmember entry
    obtain ⟨⟨name, table⟩, -, rfl⟩ := List.mem_map.mp hmember
    exact loadMember_eq_ok (Table.settled_toDocument table) entry
  rw [documentOf, ofDocument, (mapM_eq_ok_iff hmember tables).mpr (List.map_id _)]
  rfl

theorem Grown.eq_foldl {history : List Change} {db : Database} (h : Grown history db) :
    db = history.foldl Change.apply .empty := by
  induction h with
  | empty => rfl
  | ofTables tables => rw [insertions, List.foldl_map]; rfl
  | @loaded tables db hload =>
      rw [ofDocument_documentOf] at hload
      obtain rfl := Except.ok.inj hload
      rw [insertions, List.foldl_map]
      rfl
  | insert name table _ ih => rw [List.foldl_concat, ← ih]; rfl
  | erase name _ ih => rw [List.foldl_concat, ← ih]; rfl

theorem get?_foldl_apply (history : List Change) (name : String) :
    (history.foldl Change.apply .empty).get? name = left? history name := by
  induction history using List.reverseRecOn with
  | nil => rfl
  | append_singleton history change ih =>
      rw [List.foldl_concat, get?_apply, Change.left?_concat, ih]

/-! ### Sorted tables -/

theorem nodup_keys_of_sorted {tables : List (String × Table)}
    (h : tables.Pairwise fun a b => a.1 < b.1) : (Keyed.keys tables).Nodup :=
  List.Pairwise.map Prod.fst (fun _ _ hlt heq => String.lt_irrefl _ (heq ▸ hlt)) h

theorem names_bytesBefore (db : Database) : db.names.Pairwise Text.BytesBefore :=
  List.Pairwise.map Prod.fst (fun _ _ => Text.bytesBefore_iff.mpr) db.sorted

theorem mem_toList_iff (db : Database) (name : String) (table : Table) :
    (name, table) ∈ db.toList ↔ db.get? name = some table :=
  Keyed.mem_iff_lookup (nodup_keys_of_sorted db.sorted)

theorem mem_names_iff (db : Database) (name : String) :
    name ∈ db.names ↔ (db.get? name).isSome = true := by
  rw [Option.isSome_iff_exists, names, List.mem_map]
  simp only [← mem_toList_iff]
  constructor
  · rintro ⟨⟨n, table⟩, hmem, rfl⟩
    exact ⟨table, hmem⟩
  · rintro ⟨table, hmem⟩
    exact ⟨_, hmem, rfl⟩

theorem lookup_first (name : String) (table : Table) (tables : List (String × Table)) :
    ((name, table) :: tables).lookup name = some table := by
  rw [Keyed.lookup_cons, if_pos rfl]

theorem first_le_of_isSome {first : String × Table} {tables : List (String × Table)}
    (h : (first :: tables).Pairwise fun a b => a.1 < b.1) {name : String}
    (hname : ((first :: tables).lookup name).isSome = true) : first.1 ≤ name := by
  obtain ⟨table, hlookup⟩ := Option.isSome_iff_exists.mp hname
  rw [← Keyed.mem_iff_lookup (nodup_keys_of_sorted h)] at hlookup
  rcases List.mem_cons.mp hlookup with rfl | hmem
  · exact String.le_refl name
  · exact Std.le_of_lt (List.rel_of_pairwise_cons h hmem)

theorem isSome_eq_of_rel {r : Table → Table → Prop} {a b : Option Table} (h : Option.Rel r a b) :
    a.isSome = b.isSome := by
  cases h <;> rfl

theorem forall₂_of_lookup {r : Table → Table → Prop} {tables others : List (String × Table)}
    (htables : tables.Pairwise fun a b => a.1 < b.1)
    (hothers : others.Pairwise fun a b => a.1 < b.1)
    (h : ∀ name, Option.Rel r (tables.lookup name) (others.lookup name)) :
    List.Forall₂ (fun a b => a.1 = b.1 ∧ r a.2 b.2) tables others := by
  have hsome (name : String) := isSome_eq_of_rel (h name)
  induction tables generalizing others with
  | nil =>
      cases others with
      | nil => exact .nil
      | cons other others =>
          have hother := hsome other.1
          rw [List.lookup_nil, lookup_first] at hother
          cases hother
  | cons first tables ih =>
      cases others with
      | nil =>
          have hfirst := hsome first.1
          rw [List.lookup_nil, lookup_first] at hfirst
          cases hfirst
      | cons other others =>
          obtain ⟨n, t⟩ := first
          obtain ⟨m, u⟩ := other
          -- Each side finds the first name of the other, so the two are the same.
          obtain rfl : n = m := by
            apply String.le_antisymm
            · apply first_le_of_isSome htables
              rw [hsome, lookup_first, Option.isSome_some]
            · apply first_le_of_isSome hothers
              rw [← hsome, lookup_first, Option.isSome_some]
          have hr := h n
          rw [lookup_first, lookup_first, Option.rel_some_some] at hr
          have hrest : ∀ name, Option.Rel r (tables.lookup name) (others.lookup name) := by
            intro name
            by_cases hname : name = n
            · obtain ⟨hn, -⟩ := List.nodup_cons.mp (nodup_keys_of_sorted htables)
              obtain ⟨hn', -⟩ := List.nodup_cons.mp (nodup_keys_of_sorted hothers)
              rw [hname, Keyed.lookup_of_notMem hn, Keyed.lookup_of_notMem hn']
              exact .none
            · have hall := h name
              rwa [Keyed.lookup_cons, Keyed.lookup_cons, if_neg hname, if_neg hname] at hall
          exact .cons ⟨rfl, hr⟩ (ih htables.of_cons hothers.of_cons hrest fun name =>
            isSome_eq_of_rel (hrest name))

theorem eq_of_get?_eq {db other : Database} (h : ∀ name, db.get? name = other.get? name) :
    db = other := by
  have hrel : ∀ name, Option.Rel Eq (db.get? name) (other.get? name) := by
    intro name
    rw [h name]
    cases other.get? name with
    | none => exact .none
    | some table => exact .some rfl
  have htables := forall₂_of_lookup db.sorted other.sorted hrel
  rw [Database.ext_iff, ← List.forall₂_eq_eq_eq]
  exact htables.imp fun _ _ hentry => Prod.ext hentry.1 hentry.2

theorem isEqv_of_forall₂ {α : Type} {r : α → α → Bool} {as bs : List α}
    (h : List.Forall₂ (fun a b => r a b = true) as bs) : as.isEqv bs r = true := by
  induction h with
  | nil => rfl
  | cons hr _ ih => rw [List.isEqv, hr, ih]; rfl

theorem equals_of_get?_equals {db other : Database}
    (h : ∀ name, Option.Rel (fun a b => Table.equals a b = true) (db.get? name)
      (other.get? name)) : db.equals other = true := by
  have htables := forall₂_of_lookup db.sorted other.sorted h
  refine isEqv_of_forall₂ (htables.imp fun a b hentry => ?_)
  rw [Bool.and_eq_true, beq_iff_eq]
  exact hentry

/-- What a database answers after a history of changes. -/
structure Reflects (history : List Change) (db : Database) : Prop where
  ordered : db.names.Pairwise Text.BytesBefore
  present : ∀ name, name ∈ db.names ↔ (db.get? name).isSome = true
  left : ∀ name, db.get? name = left? history name
  insert : ∀ name table, db.Replaces name (some table) (db.getThenInsert? name table)
  erase : ∀ name, db.Replaces name none (db.getThenErase? name)
  names : db.toList.map Prod.fst = db.names
  tables : ∀ name table, (name, table) ∈ db.toList ↔ db.get? name = some table
  size : db.size = db.names.length
  isEmpty : db.isEmpty = true ↔ ∀ name, db.get? name = none

theorem Grown.reflects {history : List Change} {db : Database} (h : Grown history db) :
    db.Reflects history where
  ordered := db.names_bytesBefore
  present := db.mem_names_iff
  left name := by rw [h.eq_foldl, get?_foldl_apply]
  insert name table := db.replaces_apply (.insertion name table)
  erase name := db.replaces_apply (.erasure name)
  names := rfl
  tables := db.mem_toList_iff
  size := by rw [size, Database.names, List.length_map]
  isEmpty := by
    have hnone (name : String) : db.get? name = none ↔ name ∉ db.names := by
      rw [mem_names_iff, Option.not_isSome_iff_eq_none]
    simp only [hnone, ← List.eq_nil_iff_forall_not_mem]
    rw [Database.names, List.map_eq_nil_iff, isEmpty, List.isEmpty_iff]

theorem exists_documentOf_of_ofText {text : String} {db : Database} (h : ofText text = .ok db) :
    ∃ tables, Document.read? text = some (documentOf tables) ∧ Grown (insertions tables) db := by
  obtain ⟨tables, hread, rfl⟩ := ofText_eq_ok.mp h
  exact ⟨tables, hread, .loaded (ofDocument_documentOf tables)⟩

/-- A text that loads makes the changes of the tables that it shows. After any changes the
names stand in the order of their bytes, each of them once, with what the last change of
the name put there, and the next change answers the table that it replaces and leaves all
others. Databases that find the same tables are the same, and those that find equal ones
are equal. -/
theorem sorted_map_histories :
    (∀ text db, ofText text = .ok db →
      ∃ tables, Document.read? text = some (documentOf tables) ∧ Grown (insertions tables) db) ∧
    (∀ history db, Grown history db → db.Reflects history) ∧
    (∀ db other : Database, (∀ name, db.get? name = other.get? name) → db = other) ∧
    ∀ db other : Database,
      (∀ name, Option.Rel (fun a b => Table.equals a b = true) (db.get? name) (other.get? name)) →
      db.equals other = true :=
  ⟨fun _ _ => exists_documentOf_of_ofText, fun _ _ => Grown.reflects, fun _ _ => eq_of_get?_eq,
    fun _ _ => equals_of_get?_equals⟩

/-- Two tables that are loaded out of order, a name that is repeated, one that is given up
and taken again, and two zeros that are equal but not the same. -/
theorem sorted_map_histories_samples :
    let tables : List (String × Table) := [("t", []), ("s", []), ("t", [.empty])]
    let start := ofTables tables
    let zero (negative : Bool) := ofTables [("t", [.ofPairs [("x", .number (.signed negative 0))]])]
    (∃ tables, Document.read? "\x7b\"t\":[],\"s\":[]\x7d" = some (documentOf tables) ∧
        Grown (insertions tables) (ofTables [("t", []), ("s", [])])) ∧
      start.names.Pairwise Text.BytesBefore ∧ start.get? "t" = some [.empty] ∧
      (start.getThenErase? "s").2.get? "s" = none ∧
      ((start.getThenErase? "s").2.getThenInsert? "s" []).2 = start ∧
      (zero true).equals (zero false) = true := by
  intro tables start zero
  obtain ⟨hload, hreflects, heq, hequals⟩ := sorted_map_histories
  have hstart := hreflects _ _ (.ofTables tables)
  have herased := hreflects _ _ (.erase "s" (.ofTables tables))
  have hnumbers : ∀ entry ∈ [("t", []), ("s", [])], Table.ReadsBack entry.2 := by
    simp [Table.ReadsBack]
  have htext := ofText_of_holds (by decide)
    (holds_of_printed hnumbers (printed_render [("t", []), ("s", [])] false))
  refine ⟨hload _ _ htext, hstart.ordered, hstart.left "t", herased.left "s",
    heq _ _ fun name => ?_, hequals _ _ fun name => ?_⟩
  · have hinsert := herased.insert "s" []
    by_cases hname : name = "s"
    · rw [hname, hinsert.get?, hstart.left]
      rfl
    · rw [hinsert.others name hname, (hstart.erase "s").others name hname]
  · have hzero (negative : Bool) := hreflects _ _ (.ofTables
      [("t", [.ofPairs [("x", .number (.signed negative 0))]])])
    rw [(hzero true).left, (hzero false).left]
    by_cases hname : name = "t"
    · rw [hname]
      exact .some (by decide)
    · have hmissing (table : Table) : left? (insertions [("t", table)]) name = none := by
        simp [left?, insertions, Change.name, Ne.symm hname]
      rw [hmissing, hmissing]
      exact .none

end Database

end TableQuery
