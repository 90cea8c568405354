import TableQuery.Database.Loading
import TableQuery.Proofs.Binary64.Nearest
import TableQuery.Proofs.Json.Reading

/-!
Loading finds what is wrong with a document, or the tables that it shows. The
faults of a document are listed in the order in which they stand in it, members
first, then the records of a member and then the fields of a record, and the
error that loading stops with is the head of that list. Without faults loading
undoes the encoding: the document is that of the loaded tables, row for row and
column for column.
-/

namespace TableQuery

section Traversal

variable {ε α β : Type} {f : α → Except ε β}

def errorOf? : Except ε α → Option ε
  | .error e => some e
  | .ok _ => none

theorem errorOf?_eq_some {result : Except ε α} {e : ε} :
    errorOf? result = some e ↔ result = .error e := by
  cases result <;> simp [errorOf?]

theorem errorOf?_eq_none {result : Except ε α} :
    errorOf? result = none ↔ ∃ a, result = .ok a := by
  cases result <;> simp [errorOf?]

theorem errorOf?_map {g : α → β} {result : Except ε α} :
    errorOf? (result.map g) = errorOf? result := by
  cases result <;> rfl

theorem map_eq_ok {g : α → β} {result : Except ε α} {b : β} :
    result.map g = .ok b ↔ ∃ a, result = .ok a ∧ g a = b := by
  cases result <;> simp [Except.map]

theorem bind_eq_ok {result : Except ε α} {next : α → Except ε β} {b : β} :
    (result >>= next) = .ok b ↔ ∃ a, result = .ok a ∧ next a = .ok b := by
  cases result <;> simp [bind, Except.bind]

/-- A traversal stops with the first of the faults of its items. -/
theorem errorOf?_mapM {faults : α → List ε} (h : ∀ a, errorOf? (f a) = (faults a).head?)
    (as : List α) : errorOf? (as.mapM f) = (as.flatMap faults).head? := by
  induction as with
  | nil => rfl
  | cons a as ih =>
      rw [List.mapM_cons, List.flatMap_cons, List.head?_append, ← h, ← ih]
      cases f a with
      | error e => rfl
      | ok b => cases as.mapM f <;> rfl

/-- A traversal that matches what each item and its result show matches what the lists
show. -/
theorem mapM_eq_ok_iff {γ : Type} {p : α → γ} {q : β → γ} {as : List α}
    (h : ∀ a ∈ as, ∀ b, f a = .ok b ↔ p a = q b) (bs : List β) :
    as.mapM f = .ok bs ↔ as.map p = bs.map q := by
  induction as generalizing bs with
  | nil => cases bs <;> simp [pure, Except.pure]
  | cons a as ih =>
      have htail := ih fun c hc => h c (List.mem_cons_of_mem _ hc)
      simp only [List.mapM_cons, bind_eq_ok, h a List.mem_cons_self, htail, pure, Except.pure,
        Except.ok.injEq, List.map_cons]
      constructor
      · rintro ⟨b, ha, bs, has, rfl⟩
        rw [ha, has, List.map_cons]
      · intro heq
        cases bs with
        | nil => simp at heq
        | cons b bs =>
            obtain ⟨ha, has⟩ := List.cons.inj heq
            exact ⟨b, ha, bs, has, rfl⟩

end Traversal

/-! ### Faults -/

def Document.isScalar : Document → Bool
  | .array _ | .object _ => false
  | .null | .boolean _ | .number _ | .string _ => true

namespace Database

def fieldFaults (table : String) (field : String × Document) : List LoadError :=
  if field.2.isScalar then [] else [.nonScalar table field.1]

def recordFaults (table : String) (index : Nat) : Document → List LoadError
  | .object fields => fields.flatMap (fieldFaults table)
  | _ => [.notARecord table index]

/-- The records are counted from zero. -/
def tableFaults (table : String) : Document → List LoadError
  | .array records =>
    records.zipIdx.flatMap fun (record, index) => recordFaults table index record
  | _ => [.notATable table]

/-- All faults of a document, in the order in which they stand in it. -/
def faults : Document → List LoadError
  | .object members => members.flatMap fun (name, value) => tableFaults name value
  | _ => [.notAnObject]

theorem errorOf?_loadField (table : String) (field : String × Document) :
    errorOf? (loadField table field) = (fieldFaults table field).head? := by
  obtain ⟨column, value⟩ := field
  cases value <;> rfl

theorem errorOf?_loadRecord (table : String) (index : Nat) (record : Document) :
    errorOf? (loadRecord table index record) = (recordFaults table index record).head? := by
  cases record with
  | object fields =>
      rw [loadRecord, errorOf?_map, errorOf?_mapM (errorOf?_loadField table), recordFaults]
  | null | boolean _ | number _ | string _ | array _ => rfl

theorem loadRecords_eq_mapM (table : String) (index : Nat) (records : List Document) :
    loadRecords table index records =
      (records.zipIdx index).mapM fun (record, index) => loadRecord table index record := by
  induction records generalizing index with
  | nil => rfl
  | cons record records ih =>
      rw [loadRecords, List.zipIdx_cons, List.mapM_cons, ih]
      rfl

theorem errorOf?_loadRecords (table : String) (records : List Document) :
    errorOf? (loadRecords table 0 records) = (tableFaults table (.array records)).head? := by
  rw [loadRecords_eq_mapM, tableFaults]
  exact errorOf?_mapM (fun (record, index) => errorOf?_loadRecord table index record) _

theorem errorOf?_loadTable (table : String) (value : Document) :
    errorOf? (loadTable table value) = (tableFaults table value).head? := by
  cases value with
  | array records => exact errorOf?_loadRecords table records
  | null | boolean _ | number _ | string _ | object _ => rfl

theorem errorOf?_ofDocument (document : Document) :
    errorOf? (ofDocument document) = (faults document).head? := by
  cases document with
  | object members =>
      rw [ofDocument, errorOf?_map, faults]
      refine errorOf?_mapM (fun member => ?_) members
      rw [loadMember, errorOf?_map, errorOf?_loadTable]
  | null | boolean _ | number _ | string _ | array _ => rfl

/-- An object of scalars. -/
def IsRecord (record : Document) : Prop :=
  ∃ fields, record = .object fields ∧ ∀ field ∈ fields, field.2.isScalar = true

def IsTable (value : Document) : Prop :=
  ∃ records, value = .array records ∧ ∀ record ∈ records, IsRecord record

def IsDatabase (document : Document) : Prop :=
  ∃ members, document = .object members ∧ ∀ member ∈ members, IsTable member.2

theorem recordFaults_eq_nil {table : String} {index : Nat} {record : Document} :
    recordFaults table index record = [] ↔ IsRecord record := by
  cases record with
  | object fields => simp [recordFaults, fieldFaults, IsRecord]
  | null | boolean _ | number _ | string _ | array _ => simp [recordFaults, IsRecord]

theorem tableFaults_eq_nil {table : String} {value : Document} :
    tableFaults table value = [] ↔ IsTable value := by
  cases value with
  | array records =>
      simp only [tableFaults, List.flatMap_eq_nil_iff, recordFaults_eq_nil, IsTable,
        Document.array.injEq, exists_eq_left']
      constructor
      · intro h record hrecord
        obtain ⟨index, hindex, rfl⟩ := List.getElem_of_mem hrecord
        exact h (records[index], index) (List.mem_zipIdx_iff_getElem?.mpr (by simp))
      · rintro h ⟨record, index⟩ hrecord
        exact h record (List.fst_mem_of_mem_zipIdx hrecord)
  | null | boolean _ | number _ | string _ | object _ => simp [tableFaults, IsTable]

theorem faults_eq_nil {document : Document} : faults document = [] ↔ IsDatabase document := by
  cases document with
  | object members => simp [faults, tableFaults_eq_nil, IsDatabase]
  | null | boolean _ | number _ | string _ | array _ => simp [faults, IsDatabase]

/-! ### Loaded tables -/

theorem ofDocument?_eq_some {document : Document} {value : Value} :
    Value.ofDocument? document = some value ↔ document = value.toDocument := by
  cases document <;> cases value <;> simp [Value.ofDocument?, Value.toDocument]

theorem loadField_eq_ok {table : String} {field : String × Document} {column : String × Value} :
    loadField table field = .ok column ↔ field = (column.1, column.2.toDocument) := by
  obtain ⟨name, document⟩ := field
  obtain ⟨key, value⟩ := column
  rw [Prod.mk.injEq, ← ofDocument?_eq_some, loadField]
  cases Value.ofDocument? document <;> simp

/-- The fields of the record are the columns of the row, provided that no name is repeated. -/
theorem loadRecord_eq_ok {table : String} {index : Nat} {record : Document}
    (hsettled : record.settled = record) (row : Row) :
    loadRecord table index record = .ok row ↔ record = row.toDocument := by
  cases record with
  | object fields =>
      have hnodup := Document.nodup_of_settled hsettled
      have hfield : ∀ field ∈ fields, ∀ column : String × Value,
          loadField table field = .ok column ↔ id field = (column.1, column.2.toDocument) :=
        fun _ _ _ => loadField_eq_ok
      have hfields (columns : List (String × Value)) :
          fields.mapM (loadField table) = .ok columns ↔
            fields = columns.map fun column => (column.1, column.2.toDocument) := by
        rw [mapM_eq_ok_iff hfield, List.map_id]
      simp only [loadRecord, map_eq_ok, hfields, Row.toDocument, Document.object.injEq]
      constructor
      · rintro ⟨columns, rfl, rfl⟩
        rw [Keyed.keys_map] at hnodup
        have hcolumns : (Row.ofPairs columns).columns = columns := Keyed.ofPairs_of_nodup hnodup
        rw [hcolumns]
      · rintro rfl
        refine ⟨row.columns, rfl, ?_⟩
        rw [Row.ext_iff]
        exact Keyed.ofPairs_of_nodup row.nodup_keys
  | null | boolean _ | number _ | string _ | array _ => simp [loadRecord, Row.toDocument]

theorem loadRecords_eq_ok {table : String} {records : List Document}
    (hsettled : ∀ record ∈ records, record.settled = record) (index : Nat) (rows : Table) :
    loadRecords table index records = .ok rows ↔ records = rows.map Row.toDocument := by
  have hrecords : ∀ entry ∈ records.zipIdx index, ∀ row,
      loadRecord table entry.2 entry.1 = .ok row ↔ entry.1 = row.toDocument :=
    fun entry hentry => loadRecord_eq_ok (hsettled entry.1 (List.fst_mem_of_mem_zipIdx hentry))
  rw [loadRecords_eq_mapM, mapM_eq_ok_iff hrecords, List.zipIdx_map_fst]

theorem loadTable_eq_ok {table : String} {value : Document} (hsettled : value.settled = value)
    (rows : Table) : loadTable table value = .ok rows ↔ value = rows.toDocument := by
  cases value with
  | array records =>
      rw [Table.toDocument, Document.array.injEq]
      exact loadRecords_eq_ok (Document.settled_of_mem_items hsettled) 0 rows
  | null | boolean _ | number _ | string _ | object _ => simp [loadTable, Table.toDocument]

theorem loadMember_eq_ok {member : String × Document} (hsettled : member.2.settled = member.2)
    (entry : String × Table) :
    loadMember member = .ok entry ↔ member = (entry.1, entry.2.toDocument) := by
  obtain ⟨name, value⟩ := member
  obtain ⟨key, rows⟩ := entry
  simp only [loadMember, map_eq_ok, loadTable_eq_ok hsettled, Prod.mk.injEq]
  constructor
  · rintro ⟨rows, hrows, rfl, rfl⟩
    exact ⟨rfl, hrows⟩
  · rintro ⟨rfl, hrows⟩
    exact ⟨rows, hrows, rfl, rfl⟩

/-- The document that shows tables: an object with a member for each. -/
def documentOf (tables : List (String × Table)) : Document :=
  .object (tables.map fun (name, table) => (name, table.toDocument))

theorem ofDocument_eq_ok {document : Document} (hsettled : document.settled = document)
    (db : Database) :
    ofDocument document = .ok db ↔
      ∃ tables, document = documentOf tables ∧ ofTables tables = db := by
  cases document with
  | object members =>
      have hmember : ∀ member ∈ members, ∀ entry : String × Table,
          loadMember member = .ok entry ↔ id member = (entry.1, entry.2.toDocument) :=
        fun member hmember =>
          loadMember_eq_ok (Document.settled_of_mem_members hsettled member hmember)
      have hmembers (tables : List (String × Table)) : members.mapM loadMember = .ok tables ↔
          members = tables.map fun (name, table) => (name, table.toDocument) := by
        rw [mapM_eq_ok_iff hmember, List.map_id]
      simp only [ofDocument, map_eq_ok, hmembers, documentOf, Document.object.injEq]
  | null | boolean _ | number _ | string _ | array _ => simp [ofDocument, documentOf]

theorem nodup_names_of_settled {tables : List (String × Table)}
    (h : (documentOf tables).settled = documentOf tables) : (tables.map Prod.fst).Nodup := by
  have hnodup := Document.nodup_of_settled h
  rwa [Keyed.keys_map] at hnodup

/-- What is read from a text repeats no name, so a text that loads holds the document of
tables. -/
theorem ofText_eq_ok {text : String} {db : Database} :
    ofText text = .ok db ↔
      ∃ tables, Document.read? text = some (documentOf tables) ∧ ofTables tables = db := by
  rw [ofText]
  cases hread : Document.read? text with
  | none => simp
  | some document =>
      simp only [ofDocument_eq_ok (Json.settled_of_read? hread), Option.some.injEq]

theorem perm_insertSorted {name : String} {table : Table} {tables : List (String × Table)}
    (h : name ∉ tables.map Prod.fst) :
    (insertSorted name table tables).Perm ((name, table) :: tables) := by
  induction tables with
  | nil => exact .refl _
  | cons first tables ih =>
      obtain ⟨n, t⟩ := first
      simp only [List.map_cons, List.mem_cons, not_or] at h
      simp only [insertSorted]
      split
      · exact .refl _
      · rw [if_neg h.1]
        exact ((ih h.2).cons _).trans (.swap _ _ _)

theorem perm_ofTables {tables : List (String × Table)} (h : (tables.map Prod.fst).Nodup) :
    (ofTables tables).toList.Perm tables := by
  suffices ∀ db : Database, (∀ name ∈ tables.map Prod.fst, name ∉ db.names) →
      (tables.foldl (fun db entry => db.insert entry.1 entry.2) db).toList.Perm
        (db.toList ++ tables) from this empty (by simp [names, empty])
  induction tables with
  | nil =>
      intro db _
      rw [List.foldl_nil, List.append_nil]
  | cons entry tables ih =>
      intro db hnew
      obtain ⟨hentry, hrest⟩ := List.nodup_cons.mp h
      have hinsert : (db.insert entry.1 entry.2).toList.Perm (entry :: db.toList) :=
        perm_insertSorted (hnew entry.1 (by simp))
      have hnew' : ∀ name ∈ tables.map Prod.fst, name ∉ (db.insert entry.1 entry.2).names := by
        intro name hname hmem
        rcases List.mem_cons.mp ((hinsert.map Prod.fst).mem_iff.mp hmem) with rfl | hmem
        · exact hentry hname
        · exact hnew name (List.mem_cons_of_mem _ hname) hmem
      exact ((ih hrest _ hnew').trans (hinsert.append_right tables)).trans List.perm_middle.symm

/-- A document loads if and only if it shows tables, and then it is the document of the
loaded ones, in which every member is a table, every record a row and every field a
column; otherwise the error is its first fault. What counts is the document in which
repeated names are settled: that is what is read from a text, and a value that is
overwritten leaves no trace in it. An integer of at most sixty-four bits is read as the
nearest number, and numbers are loaded as they are. -/
theorem loading_outcomes (written : Document) :
    ((∃ db, ofDocument written.settled = .ok db) ↔ IsDatabase written.settled) ∧
      (∀ db, ofDocument written.settled = .ok db →
        ∃ tables, written.settled = documentOf tables ∧ db.toList.Perm tables) ∧
      (∀ e, ofDocument written.settled = .error e ↔ (faults written.settled).head? = some e) ∧
      (∀ text, Json.Holds text written → ofText text = ofDocument written.settled) ∧
      (∀ other, written.DifferOverwritten other → written.settled = other.settled) ∧
      (∀ n : Int, -2 ^ 63 ≤ n → n < 2 ^ 64 →
        Json.ScalarText (.number (Binary64.ofInt n)) (Json.integerText n) ∧
          Binary64.IsNearest (Binary64.ofInt n) (n * Binary64.unitsPerOne)) := by
  have hsettled := written.settled_settled
  refine ⟨?_, fun db hdb => ?_, fun e => ?_, fun text htext => ?_,
    fun _ => Document.settled_of_differOverwritten, fun n hlow hhigh => ?_⟩
  · rw [← errorOf?_eq_none, errorOf?_ofDocument, List.head?_eq_none_iff, faults_eq_nil]
  · obtain ⟨tables, htables, rfl⟩ := (ofDocument_eq_ok hsettled db).mp hdb
    refine ⟨tables, htables, perm_ofTables ?_⟩
    rw [htables] at hsettled
    have hnodup := Document.nodup_of_settled hsettled
    rwa [Keyed.keys_map] at hnodup
  · rw [← errorOf?_eq_some, errorOf?_ofDocument]
  · rw [ofText, Json.read?_of_holds htext]
  · have hn : n.natAbs < 2 ^ 64 := by omega
    exact ⟨.number (Json.readNumber?_integerText hn), Binary64.isNearest_ofInt hn⟩

/-- The first value of `t` is no table, but it is overwritten. -/
def repeatedTable : Document :=
  .object [("t", .null), ("s", .array [.null]), ("t", .array [])]

theorem holds_repeatedTable :
    Json.Holds "\x7b\"t\":null,\"s\":[null],\"t\":[ ]\x7d" repeatedTable := by
  have hnull (depth : Nat) : Json.DocumentText (depth + 1) .null ['n', 'u', 'l', 'l'] := .inl .null
  have hblank : Json.Blanks [' '] := by simp [Json.Blanks, Json.isBlank]
  have hrecords : Json.DocumentText 126 (.array [.null]) _ :=
    .inr (.array (.items Json.blanks_nil (.last (hnull 124) Json.blanks_nil)))
  have hempty : Json.DocumentText 126 (.array []) _ := .inr (.array (.empty hblank))
  have hfirst := Json.Member.intro (Json.stringText_quote "t") Json.blanks_nil Json.blanks_nil
    (hnull 125)
  have hsecond := Json.Member.intro (Json.stringText_quote "s") Json.blanks_nil Json.blanks_nil
    hrecords
  have hthird := Json.Member.intro (Json.stringText_quote "t") Json.blanks_nil Json.blanks_nil
    hempty
  have hmembers := Json.Separated.cons hfirst Json.blanks_nil Json.blanks_nil
    (.cons hsecond Json.blanks_nil Json.blanks_nil (.last hthird Json.blanks_nil))
  have htext : Json.DocumentText Json.maxDepth repeatedTable _ :=
    .inr (.object (.items Json.blanks_nil hmembers))
  exact ⟨[], _, [], by decide, Json.blanks_nil, htext, Json.blanks_nil⟩

theorem loading_repeated_table :
    ofText "\x7b\"t\":null,\"s\":[null],\"t\":[ ]\x7d" = .error (.notARecord "s" 0) ∧
      repeatedTable.settled =
        (Document.object [("t", .array []), ("s", .array [.null]), ("t", .array [])]).settled ∧
      (∃ tables, (Document.object [("t", .null), ("t", .array [])]).settled = documentOf tables ∧
        (ofTables [("t", [])]).toList.Perm tables) ∧
      Binary64.IsNearest (Binary64.ofInt 9007199254740993)
        (9007199254740993 * Binary64.unitsPerOne) := by
  obtain ⟨-, -, herror, htext, hoverwritten, hnumber⟩ := loading_outcomes repeatedTable
  refine ⟨?_, ?_, ?_, ?_⟩
  · rw [htext _ holds_repeatedTable]
    exact (herror _).mpr rfl
  · exact hoverwritten _ (.here [] [("s", .array [.null])] [] "t" .null (.array []) (.array []))
  · exact (loading_outcomes (.object [("t", .null), ("t", .array [])])).2.1 _ rfl
  · exact (hnumber 9007199254740993 (by decide) (by decide)).2

end Database

end TableQuery
