import Mathlib.Data.List.Forall2
import TableQuery.Proofs.Keyed.Repeated
import TableQuery.Proofs.Pipeline.Meaning

/-!
Selecting columns. Every row keeps its place and comes out with exactly the
requested keys, in the order of the request and each of them once. A column that
a row lacks comes out as null, and from then on it is a column like any other, so
a second selection finds there what the first one put there: within the columns
of an earlier request only the last request counts.
-/

namespace TableQuery

namespace Row

/-- What a row holds under a key, and null where it holds nothing. -/
def getOrNull (row : Row) (key : String) : Value :=
  (row.get? key).getD .null

/-- The second row has exactly the wanted columns, each where it was wanted
first, with the values that the first row has for them. -/
structure SelectedAs (row : Row) (wanted : List String) (selected : Row) : Prop where
  keys : selected.keys = wanted.eraseDups
  values : ∀ key ∈ wanted, selected.get? key = some (row.getOrNull key)

theorem keys_requested (row : Row) (wanted : List String) :
    (row.requested wanted).keys = wanted.eraseDups := by
  simp [keys, Keyed.keys, requested, Function.comp_def]

theorem get?_requested (row : Row) {wanted : List String} {key : String} (h : key ∈ wanted) :
    (row.requested wanted).get? key = some (row.getOrNull key) := by
  have hlookup : ∀ keys : List String, key ∈ keys →
      (keys.map fun k => (k, row.getOrNull k)).lookup key = some (row.getOrNull key) := by
    intro keys hkeys
    induction keys with
    | nil => simp at hkeys
    | cons k keys ih =>
        rw [List.map_cons, Keyed.lookup_cons]
        by_cases hk : key = k
        · rw [if_pos hk, hk]
        · rw [if_neg hk]
          exact ih ((List.mem_cons.mp hkeys).resolve_left hk)
  exact hlookup wanted.eraseDups (List.mem_eraseDups.mpr h)

theorem selectedAs_requested (row : Row) (wanted : List String) :
    row.SelectedAs wanted (row.requested wanted) :=
  ⟨row.keys_requested wanted, fun _ => row.get?_requested⟩

/-- A null that the first request brought in is found by the second one, which
would have brought it in as well. -/
theorem getOrNull_requested (row : Row) {wanted : List String} {key : String} (h : key ∈ wanted) :
    (row.requested wanted).getOrNull key = row.getOrNull key := by
  rw [getOrNull, row.get?_requested h, Option.getD_some]

theorem requested_requested (row : Row) {wanted others : List String}
    (h : ∀ key ∈ others, key ∈ wanted) :
    (row.requested wanted).requested others = row.requested others := by
  rw [Row.ext_iff]
  apply List.map_congr_left
  intro key hkey
  exact congrArg (Prod.mk key) (row.getOrNull_requested (h key (List.mem_eraseDups.mp hkey)))

end Row

namespace Table

theorem select_fields (table : Table) (refs : List FieldRef) :
    table.select (.fields refs) = table.map (Row.requested · (refs.map FieldRef.key)) :=
  select_eq table (.fields refs)

theorem select_select (table : Table) {refs others : List FieldRef}
    (h : ∀ ref ∈ others, ref.key ∈ refs.map FieldRef.key) :
    (table.select (.fields refs)).select (.fields others) = table.select (.fields others) := by
  rw [select_fields, select_fields, select_fields, List.map_map]
  apply List.map_congr_left
  intro row _
  refine row.requested_requested fun key hkey => ?_
  obtain ⟨ref, href, rfl⟩ := List.mem_map.mp hkey
  exact h ref href

/-- A selection puts in the place of every row one with the requested columns and
nothing else. Selecting the same columns again changes nothing, and selecting some
of them, however often and in whatever order, is as good after the selection as
before. -/
theorem selection_exact (table : Table) (refs : List FieldRef) :
    List.Forall₂ (fun row selected => row.SelectedAs (refs.map FieldRef.key) selected)
        table (table.select (.fields refs)) ∧
      (table.select (.fields refs)).select (.fields refs) = table.select (.fields refs) ∧
      ∀ others : List FieldRef, (∀ ref ∈ others, ref.key ∈ refs.map FieldRef.key) →
        (table.select (.fields refs)).select (.fields others) = table.select (.fields others) := by
  refine ⟨?_, table.select_select fun _ href => List.mem_map_of_mem href,
    fun _ hothers => table.select_select hothers⟩
  rw [select_fields, List.forall₂_map_right_iff, List.forall₂_same]
  exact fun row _ => row.selectedAs_requested _

/-- Two rows with different columns, and a request with a repeated and a missing
column that is narrowed down to the missing one. -/
theorem selection_exact_ragged :
    let table : Table := [.ofPairs [("t.a", .number .nan)], .ofPairs [("t.b", .null)]]
    let selected := table.select (.fields [⟨"t", "b"⟩, ⟨"t", "a"⟩, ⟨"t", "b"⟩])
    selected = [.ofPairs [("t.b", .null), ("t.a", .number .nan)],
        .ofPairs [("t.b", .null), ("t.a", .null)]] ∧
      selected.select (.fields [⟨"t", "b"⟩]) = table.select (.fields [⟨"t", "b"⟩]) :=
  ⟨by decide, (selection_exact _ _).2.2 [⟨"t", "b"⟩] (by decide)⟩

end Table

end TableQuery
