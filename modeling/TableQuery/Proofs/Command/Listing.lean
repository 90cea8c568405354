import Mathlib.Data.List.Forall2
import TableQuery.Command.Summary
import TableQuery.Proofs.Database.History
import TableQuery.Proofs.Row.Columns

/-!
Listing the tables of a database. A text that loads is read as an object whose members
are arrays of records. The listing has a summary of each member, and puts them in the
order of the names, whatever the order of the members is. A summary counts the records
and collects the names of their fields, which need not be the same in all of them.
-/

namespace TableQuery

/-- The summary tells the name of the member and, of its records, how many there are and
which columns at least one of them has, from the first record to the last and each of them
from left to right. -/
structure Summarizes (member : String × Document) (summary : TableSummary) : Prop where
  name : summary.name = member.1
  records : ∃ records : List (List (String × Document)),
    member.2 = .array (records.map .object) ∧ summary.rows = records.length ∧
      Keyed.FirstOccurrences (records.flatMap Keyed.keys) summary.columns

/-- There is one summary of every member, and the names of the summaries increase. -/
structure Lists (members : List (String × Document)) (summaries : List TableSummary) : Prop where
  ordered : (summaries.map (·.name)).Pairwise Text.BytesBefore
  complete : ∃ sorted, sorted.Perm members ∧ List.Forall₂ Summarizes sorted summaries

theorem Table.flatMap_keys (table : Table) :
    (table.map fun row => row.columns.map fun (key, value) => (key, value.toDocument)).flatMap
      Keyed.keys = table.flatMap Row.keys := by
  rw [List.flatMap_map]
  simp only [Keyed.keys_map]
  rfl

theorem summarizes_summary (name : String) (table : Table) :
    Summarizes (name, table.toDocument) (table.summary name) where
  name := rfl
  records := by
    refine ⟨table.map fun row => row.columns.map fun (key, value) => (key, value.toDocument),
      ?_, ?_, ?_⟩
    · rw [List.map_map]
      rfl
    · rw [List.length_map]
      rfl
    · rw [Table.flatMap_keys]
      exact Keyed.firstOccurrences_eraseDups _

namespace Database

theorem names_summaries (db : Database) : db.summaries.map (·.name) = db.names := by
  rw [summaries, List.map_map]
  rfl

theorem forall₂_summarizes (db : Database) :
    List.Forall₂ Summarizes (db.toList.map fun (name, table) => (name, table.toDocument))
      db.summaries := by
  rw [summaries, List.forall₂_map_left_iff, List.forall₂_map_right_iff, List.forall₂_same]
  exact fun (name, table) _ => summarizes_summary name table

theorem lists_summaries_ofTables {tables : List (String × Table)}
    (h : (tables.map Prod.fst).Nodup) :
    Lists (tables.map fun (name, table) => (name, table.toDocument))
      (ofTables tables).summaries where
  ordered := by
    rw [names_summaries]
    exact names_bytesBefore _
  complete := ⟨_, (perm_ofTables h).map _, forall₂_summarizes _⟩

end Database

/-- A text that loads is an object, and the listing is that of its members. On any other
text the listing fails as loading does. -/
theorem listTables_complete (text : String) :
    (∀ db, Database.ofText text = .ok db →
        ∃ members summaries, Document.read? text = some (.object members) ∧
          listTables text = .ok summaries ∧ Lists members summaries) ∧
      ∀ e, Database.ofText text = .error e → listTables text = .error (.store e) := by
  refine ⟨fun db hload => ?_, fun e herror => ?_⟩
  · obtain ⟨tables, hread, rfl⟩ := Database.ofText_eq_ok.mp hload
    have hnames := Database.nodup_names_of_settled (Json.settled_of_read? hread)
    refine ⟨_, (Database.ofTables tables).summaries, hread, ?_,
      Database.lists_summaries_ofTables hnames⟩
    rw [listTables, hload]
  · rw [listTables, herror]

/-- Records with different columns, one of them without any, and a table without records. -/
def raggedText : String :=
  "\x7b\"t\":[\x7b\"b\":\"\"\x7d,\x7b\x7d,\x7b\"a\":\"\",\"b\":\"\"\x7d],\"s\":[]\x7d"

def raggedTables : List (String × Table) :=
  [("t", [.ofPairs [("b", .string "")], .empty, .ofPairs [("a", .string ""), ("b", .string "")]]),
    ("s", [])]

theorem listTables_complete_ragged :
    (∃ members, Document.read? raggedText = some (.object members) ∧
        Lists members [⟨"s", 0, []⟩, ⟨"t", 3, ["b", "a"]⟩]) ∧
      listTables "[]" = .error (.store .notAnObject) := by
  have hnumbers : ∀ entry ∈ raggedTables, Table.ReadsBack entry.2 := by
    simp [raggedTables, Table.ReadsBack, Row.ofPairs, Row.empty, Keyed.ofPairs, Keyed.insert]
    rintro _ _ (⟨-, rfl⟩ | ⟨-, rfl⟩) x hx <;> cases hx
  have hload : Database.ofText raggedText = .ok (.ofTables raggedTables) :=
    Database.ofText_of_holds (by decide)
      (Database.holds_of_printed hnumbers (Database.printed_render raggedTables false))
  have hlist : listTables raggedText = .ok [⟨"s", 0, []⟩, ⟨"t", 3, ["b", "a"]⟩] := by
    rw [listTables, hload]
    rfl
  refine ⟨?_, (listTables_complete "[]").2 .notAnObject rfl⟩
  obtain ⟨members, summaries, hread, hsummaries, hlists⟩ :=
    (listTables_complete raggedText).1 _ hload
  obtain rfl := Except.ok.inj (hsummaries.symm.trans hlist)
  exact ⟨members, hread, hlists⟩

end TableQuery
