import TableQuery.Proofs.Database.Loading
import TableQuery.Proofs.Json.Printing

/-!
Printing tables and loading them again. A document that shows tables repeats no
name, neither of a table nor of a column, so nothing is lost when it is settled,
and loading undoes the encoding. What comes back differs in its numbers only:
those that are not finite are null, and negative zero is zero.
-/

namespace TableQuery

/-- The row that comes back when a row is printed and loaded. -/
def Row.reloaded (row : Row) : Row where
  columns := row.columns.map fun (key, value) => (key, value.reloaded)
  nodup_keys := by
    rw [Keyed.keys_map]
    exact row.nodup_keys

def Table.reloaded (table : Table) : Table :=
  table.map Row.reloaded

/-- The digits printed for the numbers of the table are read back, where they are not those
of integers. -/
def Table.ReadsBack (table : Table) : Prop :=
  ∀ row ∈ table, ∀ column ∈ row.columns, ∀ x, column.2 = .number x → x.ReadsBack

/-- The texts that are printed for a table, on one line or indented. -/
def Table.Printed (table : Table) (s : List Char) : Prop :=
  ∃ isPretty depth, s = Json.write (.ofPretty isPretty) depth table.toDocument

namespace Json

variable {layout : Layout} {depth levels : Nat}

theorem scalarText_write {value : Value} (h : ∀ x, value = .number x → x.ReadsBack) :
    ScalarText value.reloaded.toDocument (write layout depth value.toDocument) := by
  cases value with
  | null => exact .null
  | boolean b => cases b <;> constructor
  | number x => exact scalarText_numberText (h x rfl)
  | string s => exact .string (stringText_quote s)

theorem documentText_write_value {value : Value} (h : ∀ x, value = .number x → x.ReadsBack) :
    DocumentText levels value.reloaded.toDocument (write layout depth value.toDocument) := by
  cases levels with
  | zero => exact scalarText_write h
  | succ levels => exact .inl (scalarText_write h)

theorem documentText_write_row (hlayout : layout.Neutral) {row : Row}
    (h : ∀ column ∈ row.columns, ∀ x, column.2 = .number x → x.ReadsBack) :
    DocumentText (levels + 1) row.reloaded.toDocument (write layout depth row.toDocument) := by
  have hcolumns : ∀ key value, (key, value) ∈ row.columns →
      DocumentText levels value.reloaded.toDocument (write layout (depth + 1) value.toDocument) :=
    fun _ _ hcolumn => documentText_write_value (h _ hcolumn)
  refine .inr ?_
  rw [Row.toDocument, Row.reloaded, List.map_map]
  exact .object (objectText_write hlayout hcolumns)

theorem documentText_write_table (hlayout : layout.Neutral) {table : Table} (h : table.ReadsBack) :
    DocumentText (levels + 2) table.reloaded.toDocument
      (write layout depth table.toDocument) := by
  have hrows : ∀ row ∈ table, DocumentText (levels + 1) row.reloaded.toDocument
      (write layout (depth + 1) row.toDocument) :=
    fun row hrow => documentText_write_row hlayout (h row hrow)
  refine .inr ?_
  rw [Table.toDocument, Table.reloaded, List.map_map]
  exact .array (arrayText_write hlayout hrows)

end Json

theorem Value.settled_toDocument (value : Value) : value.toDocument.settled = value.toDocument := by
  cases value <;> rfl

theorem Row.settled_toDocument (row : Row) : row.toDocument.settled = row.toDocument := by
  rw [toDocument, Document.settled_object, List.map_map]
  simp only [Function.comp_def, Value.settled_toDocument]
  rw [Keyed.ofPairs_of_nodup]
  rw [Keyed.keys_map]
  exact row.nodup_keys

theorem Table.settled_toDocument (table : Table) : table.toDocument.settled = table.toDocument := by
  rw [toDocument, Document.settled_array, List.map_map]
  simp only [Function.comp_def, Row.settled_toDocument]

namespace Database

variable {tables : List (String × Table)} {text : String}

theorem settled_documentOf (hnames : (tables.map Prod.fst).Nodup) :
    (documentOf tables).settled = documentOf tables := by
  rw [documentOf, Document.settled_object, List.map_map]
  simp only [Function.comp_def, Table.settled_toDocument]
  rw [Keyed.ofPairs_of_nodup]
  rwa [Keyed.keys_map]

theorem ofText_of_holds (hnames : (tables.map Prod.fst).Nodup)
    (h : Json.Holds text (documentOf tables)) : ofText text = .ok (ofTables tables) := by
  have hsettled := settled_documentOf hnames
  rw [ofText, Json.read?_of_holds h, hsettled]
  exact (ofDocument_eq_ok hsettled _).mpr ⟨tables, rfl, rfl⟩

/-- The text is an object whose members are printed tables, with blanks anywhere between the
tokens. -/
def Printed (tables : List (String × Table)) (text : String) : Prop :=
  ∃ before s after, text.toList = before ++ s ++ after ∧ Json.Blanks before ∧
    Json.ObjectText Table.Printed tables s ∧ Json.Blanks after

theorem printed_render (tables : List (String × Table)) (isPretty : Bool) :
    Printed tables ((documentOf tables).render (.ofPretty isPretty)) := by
  have htables : ∀ name table, (name, table) ∈ tables →
      Table.Printed (id table) (Json.write (.ofPretty isPretty) 1 table.toDocument) :=
    fun _ _ _ => ⟨isPretty, 1, rfl⟩
  have hobject := Json.objectText_write (Json.neutral_ofPretty isPretty) htables
  simp only [id, Prod.mk.eta, List.map_id_fun'] at hobject
  exact ⟨[], _, [], by simp [Document.render, documentOf], Json.blanks_nil, hobject,
    Json.blanks_nil⟩

theorem holds_of_printed (hnumbers : ∀ entry ∈ tables, entry.2.ReadsBack)
    (h : Printed tables text) :
    Json.Holds text (documentOf (tables.map fun (name, table) => (name, table.reloaded))) := by
  obtain ⟨before, s, after, htext, hbefore, hs, hafter⟩ := h
  have hmembers : Json.ObjectText (Json.DocumentText 126)
      (tables.map fun (name, table) => (name, table.reloaded.toDocument)) s := by
    refine hs.map ?_
    rintro ⟨name, table⟩ hentry t hmember
    refine hmember.map (f := fun table : Table => table.reloaded.toDocument) fun t htable => ?_
    obtain ⟨isPretty, depth, rfl⟩ := htable
    exact Json.documentText_write_table (Json.neutral_ofPretty isPretty) (hnumbers _ hentry)
  refine ⟨before, s, after, htext, hbefore, .inr ?_, hafter⟩
  rw [documentOf, List.map_map]
  exact .object hmembers

/-- Tables of different names are loaded from their printed texts, whole and in their order,
with every value as it was except for the numbers that the format does not have. -/
theorem ofText_of_printed (hnames : (tables.map Prod.fst).Nodup)
    (hnumbers : ∀ entry ∈ tables, entry.2.ReadsBack) (htext : Printed tables text) :
    ∃ db, ofText text = .ok db ∧
      db.toList.Perm (tables.map fun (name, table) => (name, table.reloaded)) := by
  have hnames' : ((tables.map fun (name, table) => (name, table.reloaded)).map Prod.fst).Nodup := by
    rwa [List.map_map]
  exact ⟨_, ofText_of_holds hnames' (holds_of_printed hnumbers htext), perm_ofTables hnames'⟩

/-- A half, negative zero, a number beyond the integers of sixty-four bits and one that is
not a number. -/
def sampleColumns : List (String × Value) :=
  [("half", .number (.ofBits 0x3FE0000000000000)), ("zero", .number (.ofBits 0x8000000000000000)),
    ("large", .number (.ofBits 0x43E0000000000000)), ("none", .number .nan)]

def sampleRow : Row := Row.ofPairs sampleColumns

theorem readsBack_sampleRow : Table.ReadsBack [sampleRow] := by
  have hhalf : Binary64.ReadsBack (.ofBits 0x3FE0000000000000) := fun _ _ => by decide +kernel
  have hzero : Binary64.ReadsBack (.ofBits 0x8000000000000000) := fun _ _ => by decide +kernel
  have hlarge : Binary64.ReadsBack (.ofBits 0x43E0000000000000) := fun _ _ => by decide +kernel
  have hnan : Binary64.ReadsBack .nan := fun hfinite => absurd hfinite (by decide)
  have hcolumns : sampleRow.columns = sampleColumns := rfl
  intro row hrow column hcolumn x hx
  rw [List.mem_singleton.mp hrow, hcolumns] at hcolumn
  simp only [sampleColumns, List.mem_cons, List.not_mem_nil, or_false] at hcolumn
  rcases hcolumn with rfl | rfl | rfl | rfl
  · exact Value.number.inj hx ▸ hhalf
  · exact Value.number.inj hx ▸ hzero
  · exact Value.number.inj hx ▸ hlarge
  · exact Value.number.inj hx ▸ hnan

def sampleText : String :=
  "\x7b \"t\" : [\x7b\"half\":0.5,\"zero\":0,\"large\":9.223372036854776e+18,\"none\":null\x7d]\x7d"

theorem ofText_printed_sampleRow :
    ∃ db, ofText sampleText = .ok db ∧ db.toList.Perm [("t", [sampleRow.reloaded])] ∧
      sampleRow.reloaded.columns =
        [("half", .number (.ofBits 0x3FE0000000000000)), ("zero", .number .zero),
          ("large", .number (.ofBits 0x43E0000000000000)), ("none", .null)] := by
  have htable : Table.Printed [sampleRow] _ := ⟨false, 0, rfl⟩
  have hblank : Json.Blanks [' '] := by simp [Json.Blanks, Json.isBlank]
  have hmember := Json.Member.intro (Json.stringText_quote "t") hblank hblank htable
  have hobject : Json.ObjectText Table.Printed [("t", [sampleRow])] _ :=
    .items hblank (.last hmember Json.blanks_nil)
  have hprinted : Printed [("t", [sampleRow])] sampleText :=
    ⟨[], _, [], by decide +kernel, Json.blanks_nil, hobject, Json.blanks_nil⟩
  have hnumbers : ∀ entry ∈ [("t", [sampleRow])], Table.ReadsBack entry.2 := by
    intro entry hentry
    rw [List.mem_singleton.mp hentry]
    exact readsBack_sampleRow
  obtain ⟨db, hdb, htables⟩ := ofText_of_printed (by decide) hnumbers hprinted
  exact ⟨db, hdb, htables, by decide +kernel⟩

end Database

end TableQuery
