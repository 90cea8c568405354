import TableQuery.Proofs.Json.Printing
import TableQuery.Proofs.Keyed.Repeated

/-!
Rows over any history. However a row came about, it is what its history of insertions
makes of it: the keys stand where they were inserted first, with the values that were
inserted last. An insertion tells the value that it replaces, and touches nothing but
its own key. So a row can be taken apart and put together again, and its text lists
every column once, in the order of the row.
-/

namespace TableQuery

namespace Row

/-- The row comes about by inserting these pairs one after another, those that it is made
of at once and those that are inserted later. -/
inductive Built : List (String × Value) → Row → Prop
  | empty : Built [] .empty
  | ofPairs (pairs : List (String × Value)) : Built pairs (.ofPairs pairs)
  | insert {history : List (String × Value)} {row : Row} (key : String) (value : Value) :
      Built history row → Built (history ++ [(key, value)]) (row.getThenInsert? key value).2

/-- What an insertion answers and leaves: the value that it replaces, and a row with the
new one in its place, or at the end if the key is new. -/
structure Inserts (row : Row) (key : String) (value : Value) (result : Option Value × Row) :
    Prop where
  former : result.1 = row.get? key
  get? : result.2.get? key = some value
  others : ∀ k, k ≠ key → result.2.get? k = row.get? k
  keys : result.2.keys = if key ∈ row.keys then row.keys else row.keys ++ [key]

variable {history : List (String × Value)} {row : Row}

theorem getThenInsert?_eq (row : Row) (key : String) (value : Value) :
    row.getThenInsert? key value = (row.get? key, row.insert key value) := by
  have hexchange := Keyed.exchange_eq key value row.columns
  refine Prod.ext ?_ (Row.ext ?_)
  · change (Keyed.exchange key value row.columns).1 = row.columns.lookup key
    rw [hexchange]
  · change (Keyed.exchange key value row.columns).2 = Keyed.insert key value row.columns
    rw [hexchange]

theorem get?_insert (row : Row) (key : String) (value : Value) (k : String) :
    (row.insert key value).get? k = if k = key then some value else row.get? k :=
  Keyed.lookup_insert key value row.columns k

theorem inserts_getThenInsert? (row : Row) (key : String) (value : Value) :
    row.Inserts key value (row.getThenInsert? key value) := by
  rw [getThenInsert?_eq]
  refine ⟨rfl, ?_, fun k hk => ?_, Keyed.keys_insert key value row.columns⟩
  · rw [get?_insert, if_pos rfl]
  · rw [get?_insert, if_neg hk]

theorem Built.eq_ofPairs (h : Built history row) : row = .ofPairs history := by
  induction h with
  | empty => rfl
  | ofPairs pairs => rfl
  | @insert history row key value _ ih =>
      rw [getThenInsert?_eq, ih, Row.ext_iff]
      simp [Row.insert, Row.ofPairs, Keyed.ofPairs, List.foldl_append]

theorem Built.firstOccurrences_keys (h : Built history row) :
    Keyed.FirstOccurrences (history.map Prod.fst) row.keys := by
  have hkeys : row.keys = (history.map Prod.fst).eraseDups := by
    rw [h.eq_ofPairs]
    exact Keyed.keys_ofPairs history
  rw [hkeys]
  exact Keyed.firstOccurrences_eraseDups _

theorem Built.get?_eq (h : Built history row) (key : String) :
    row.get? key = history.reverse.lookup key := by
  rw [h.eq_ofPairs]
  exact Keyed.lookup_ofPairs history key

theorem ofPairs_columns (row : Row) : .ofPairs row.columns = row := by
  rw [Row.ext_iff]
  exact Keyed.ofPairs_of_nodup row.nodup_keys

end Row

/-- What is printed for the value. -/
def Value.Printed (layout : Json.Layout) (value : Value) (s : List Char) : Prop :=
  s = (value.toDocument.render layout).toList

theorem Value.printed_write (layout : Json.Layout) (value : Value) (depth : Nat) :
    value.Printed layout (Json.write layout depth value.toDocument) := by
  rw [Printed, Document.render, String.toList_ofList]
  cases value with
  | boolean b => cases b <;> rfl
  | null | number _ | string _ => rfl

theorem Row.objectText_render (row : Row) (isPretty : Bool) :
    Json.ObjectText (Value.Printed (.ofPretty isPretty)) row.columns
      (row.toDocument.render (.ofPretty isPretty)).toList := by
  have hcolumns : ∀ key value, (key, value) ∈ row.columns →
      Value.Printed (.ofPretty isPretty) (id value)
        (Json.write (.ofPretty isPretty) 1 value.toDocument) :=
    fun _ value _ => value.printed_write _ 1
  have hobject := Json.objectText_write (Json.neutral_ofPretty isPretty) hcolumns
  simp only [id, Prod.mk.eta, List.map_id_fun'] at hobject
  rwa [Document.render, String.toList_ofList, toDocument]

/-- A row keeps its keys in the order of their first insertion, each of them once, and
finds the value of the last one. An insertion answers the value that it replaces and
changes nothing else. Hence a row is made again by its own columns, and its text, in
either layout, has each of them as a member once, in this order. -/
theorem Row.insertion_ordered {history : List (String × Value)} {row : Row}
    (h : Row.Built history row) :
    Keyed.FirstOccurrences (history.map Prod.fst) row.keys ∧
      (∀ key, row.get? key = history.reverse.lookup key) ∧
      (∀ key, row.contains key = true ↔ key ∈ history.map Prod.fst) ∧
      row.size = row.keys.length ∧ (row.isEmpty = true ↔ history = []) ∧
      (∀ key value, row.Inserts key value (row.getThenInsert? key value)) ∧
      Row.ofPairs row.columns = row ∧
      ∀ isPretty, Json.ObjectText (Value.Printed (.ofPretty isPretty)) row.columns
        (row.toDocument.render (.ofPretty isPretty)).toList := by
  have hkeys := h.firstOccurrences_keys
  refine ⟨hkeys, h.get?_eq, fun key => ?_, ?_, ?_, row.inserts_getThenInsert?,
    row.ofPairs_columns, row.objectText_render⟩
  · rw [Row.contains_iff, hkeys.mem_iff]
  · rw [Row.size, Row.keys, Keyed.keys, List.length_map]
  · have hempty : row.isEmpty = true ↔ row.keys = [] := by
      rw [Row.isEmpty, Row.keys, Keyed.keys, List.isEmpty_iff, List.map_eq_nil_iff]
    rw [hempty, hkeys.eq_nil_iff, List.map_eq_nil_iff]

/-- A key that is repeated at the start, and one that is inserted again later. -/
theorem Row.insertion_ordered_repeated :
    let start := Row.ofPairs [("b", .null), ("a", .null), ("b", .boolean true)]
    let row := ((start.getThenInsert? "c" .null).2.getThenInsert? "a" (.string "x")).2
    Keyed.FirstOccurrences ["b", "a", "b", "c", "a"] row.keys ∧
      row.get? "a" = some (.string "x") ∧ row.get? "b" = some (.boolean true) ∧
      row.get? "d" = none ∧ row.Inserts "b" .null (row.getThenInsert? "b" .null) ∧
      Row.ofPairs row.columns = row := by
  intro start row
  obtain ⟨hkeys, hvalues, -, -, -, hinserts, hcolumns, -⟩ :=
    insertion_ordered ((Built.ofPairs [("b", .null), ("a", .null), ("b", .boolean true)]).insert
      "c" .null |>.insert "a" (.string "x"))
  exact ⟨hkeys, hvalues "a", hvalues "b", hvalues "d", hinserts "b" .null, hcolumns⟩

end TableQuery
