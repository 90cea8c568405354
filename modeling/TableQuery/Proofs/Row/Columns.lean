import Mathlib.Data.List.Induction
import Mathlib.Data.List.Nodup
import TableQuery.Pipeline

/-!
What the operations on rows do to the list of columns. Each of them is written
in the code as a series of insertions, which in the end append what is new, so
its result can be written down at once: the columns renamed, the columns of two
rows one after the other, or the columns that were asked for.
-/

namespace TableQuery

namespace Keyed

variable {κ β : Type} [DecidableEq κ] {key : κ} {value : β} {entries : List (κ × β)}

theorem insert_of_notMem (h : key ∉ keys entries) :
    insert key value entries = entries ++ [(key, value)] := by
  induction entries with
  | nil => rfl
  | cons entry rest ih =>
      obtain ⟨k, v⟩ := entry
      simp only [keys, List.map_cons, List.mem_cons, not_or] at h
      rw [insert, if_neg (Ne.symm h.1), ih h.2, List.cons_append]

theorem insert_of_mem (hnodup : (keys entries).Nodup) (h : (key, value) ∈ entries) :
    insert key value entries = entries := by
  induction entries with
  | nil => simp at h
  | cons entry rest ih =>
      obtain ⟨k, v⟩ := entry
      obtain ⟨hk, hrest⟩ := List.nodup_cons.mp hnodup
      rcases List.mem_cons.mp h with h | h
      · obtain ⟨rfl, rfl⟩ := Prod.mk.inj h
        rw [insert, if_pos rfl]
      · have hne : k ≠ key := by
          intro e
          have hmem : key ∈ rest.map Prod.fst := List.mem_map.mpr ⟨(key, value), h, rfl⟩
          exact hk (e ▸ hmem)
        rw [insert, if_neg hne, ih hrest h]

theorem foldl_insert_of_nodup {pairs : List (κ × β)} (hpairs : (keys pairs).Nodup)
    (h : ∀ key ∈ keys pairs, key ∉ keys entries) :
    pairs.foldl (fun entries pair => insert pair.1 pair.2 entries) entries = entries ++ pairs := by
  induction pairs generalizing entries with
  | nil => rw [List.foldl_nil, List.append_nil]
  | cons pair pairs ih =>
      obtain ⟨hpair, hrest⟩ := List.nodup_cons.mp hpairs
      have hnew : pair.1 ∉ keys entries := h pair.1 (by simp [keys])
      rw [List.foldl_cons, insert_of_notMem hnew, ih hrest, List.append_assoc,
        List.singleton_append]
      intro key hkey
      simp only [keys, List.map_append, List.map_cons, List.map_nil, List.mem_append,
        List.mem_singleton, not_or]
      refine ⟨h key (List.mem_cons_of_mem _ hkey), ?_⟩
      rintro rfl
      exact hpair hkey

theorem ofPairs_of_nodup {pairs : List (κ × β)} (h : (keys pairs).Nodup) :
    ofPairs pairs = pairs := by
  rw [ofPairs, foldl_insert_of_nodup h (by simp [keys]), List.nil_append]

/-- The kept items are those of a list, each of them once and in the order in which they
come first. -/
structure FirstOccurrences (items kept : List κ) : Prop where
  nodup : kept.Nodup
  mem_iff : ∀ item, item ∈ kept ↔ item ∈ items
  ordered : kept.Pairwise fun a b => items.idxOf a < items.idxOf b

theorem FirstOccurrences.nil : FirstOccurrences ([] : List κ) [] :=
  ⟨List.nodup_nil, fun _ => Iff.rfl, List.Pairwise.nil⟩

/-- One more item changes nothing if it has come before, and is kept last if it is new. -/
theorem FirstOccurrences.concat {items kept : List κ} (h : FirstOccurrences items kept) (item : κ) :
    FirstOccurrences (items ++ [item]) (if item ∈ kept then kept else kept ++ [item]) := by
  have hordered : kept.Pairwise fun a b =>
      (items ++ [item]).idxOf a < (items ++ [item]).idxOf b := by
    refine h.ordered.imp_of_mem fun ha hb hab => ?_
    rwa [List.idxOf_append_of_mem ((h.mem_iff _).mp ha),
      List.idxOf_append_of_mem ((h.mem_iff _).mp hb)]
  split
  · rename_i hold
    refine ⟨h.nodup, fun a => ?_, hordered⟩
    rw [List.mem_append, List.mem_singleton, h.mem_iff]
    exact ⟨.inl, fun ha => ha.elim id fun heq => heq ▸ (h.mem_iff item).mp hold⟩
  · rename_i hnew
    refine ⟨?_, fun a => ?_, ?_⟩
    · rw [List.nodup_append]
      refine ⟨h.nodup, List.nodup_singleton item, fun a ha b hb heq => hnew ?_⟩
      rwa [← List.mem_singleton.mp hb, ← heq]
    · rw [List.mem_append, List.mem_append, h.mem_iff]
    · rw [List.pairwise_append]
      refine ⟨hordered, List.pairwise_singleton _ item, fun a ha b hb => ?_⟩
      have hitem : item ∉ items := mt (h.mem_iff item).mpr hnew
      have hitems := (h.mem_iff a).mp ha
      rw [List.mem_singleton.mp hb, List.idxOf_append_of_mem hitems,
        List.idxOf_append_of_notMem hitem, List.idxOf_cons_self]
      have hlt := List.idxOf_lt_length_of_mem hitems
      omega

theorem FirstOccurrences.eq_nil_iff {items kept : List κ} (h : FirstOccurrences items kept) :
    kept = [] ↔ items = [] := by
  simp only [List.eq_nil_iff_forall_not_mem, h.mem_iff]

theorem firstOccurrences_eraseDups (items : List κ) : FirstOccurrences items items.eraseDups := by
  induction items using List.reverseRecOn with
  | nil => exact .nil
  | append_singleton items item ih =>
      have hconcat : (items ++ [item]).eraseDups =
          if item ∈ items.eraseDups then items.eraseDups else items.eraseDups ++ [item] := by
        rw [List.eraseDups_append]
        by_cases hitem : item ∈ items <;>
          simp [hitem, List.removeAll, List.eraseDups_cons]
      rw [hconcat]
      exact ih.concat item

/-- The entries so far hold what the function gives, so it does not matter which
of two equal keys is inserted. -/
theorem foldl_insert_map (f : κ → β) (wanted : List κ) (entries : List (κ × β))
    (hnodup : (keys entries).Nodup) (h : ∀ entry ∈ entries, entry.2 = f entry.1) :
    (wanted.map fun key => (key, f key)).foldl
        (fun entries pair => insert pair.1 pair.2 entries) entries =
      entries ++ (wanted.filter (· ∉ keys entries)).eraseDups.map fun key => (key, f key) := by
  induction wanted generalizing entries with
  | nil => simp
  | cons key wanted ih =>
      rw [List.map_cons, List.foldl_cons]
      by_cases hk : key ∈ keys entries
      · obtain ⟨⟨k, v⟩, hmem, rfl⟩ := List.mem_map.mp hk
        have hv : v = f k := h _ hmem
        rw [← hv, insert_of_mem hnodup hmem, ih _ hnodup h,
          List.filter_cons_of_neg (by simpa using hk)]
      -- A new key goes to the end, and what is left of the list must not bring it again.
      · have hnew : ∀ entry ∈ entries ++ [(key, f key)], entry.2 = f entry.1 := by
          intro entry hentry
          rcases List.mem_append.mp hentry with hentry | hentry
          · exact h entry hentry
          · rw [List.mem_singleton.mp hentry]
        have hnodup' : (keys (entries ++ [(key, f key)])).Nodup := by
          rw [← insert_of_notMem hk]
          exact nodup_keys_insert hnodup
        have hfilter : wanted.filter (· ∉ keys (entries ++ [(key, f key)])) =
            (wanted.filter (· ∉ keys entries)).filter fun k => !k == key := by
          rw [List.filter_filter]
          apply List.filter_congr
          intro k _
          rw [Bool.eq_iff_iff, Bool.and_eq_true, decide_eq_true_eq, decide_eq_true_eq]
          simp [keys, and_comm]
        rw [insert_of_notMem hk, ih _ hnodup' hnew, hfilter,
          List.filter_cons_of_pos (by simpa using hk), List.eraseDups_cons, List.map_cons,
          List.append_assoc, List.singleton_append]

theorem ofPairs_map (f : κ → β) (wanted : List κ) :
    ofPairs (wanted.map fun key => (key, f key)) =
      wanted.eraseDups.map fun key => (key, f key) := by
  have h := foldl_insert_map f wanted [] (by simp [keys]) (by simp)
  have hall : wanted.filter (· ∉ keys ([] : List (κ × β))) = wanted :=
    List.filter_eq_self.mpr (by simp [keys])
  rw [hall, List.nil_append] at h
  exact h

end Keyed

namespace Row

theorem qualifiedKey_injective {table a b : String}
    (h : qualifiedKey table a = qualifiedKey table b) : a = b := by
  rw [qualifiedKey, qualifiedKey, String.append_right_inj] at h
  exact h

/-- The row with the table name and a point in front of every key. -/
def qualified (table : String) (row : Row) : Row where
  columns := row.columns.map fun (column, value) => (qualifiedKey table column, value)
  nodup_keys := by
    have hkeys : Keyed.keys (row.columns.map fun (column, value) =>
        (qualifiedKey table column, value)) = row.keys.map (qualifiedKey table) := by
      simp [Keyed.keys, keys]
    rw [hkeys]
    exact List.Pairwise.map (qualifiedKey table) (fun a b hab h => hab (qualifiedKey_injective h))
      row.nodup_keys

theorem qualify_eq_qualified (table : String) (row : Row) :
    row.qualify table = row.qualified table := by
  rw [Row.ext_iff]
  exact Keyed.ofPairs_of_nodup (row.qualified table).nodup_keys

theorem contains_iff {row : Row} {key : String} : row.contains key = true ↔ key ∈ row.keys := by
  simp [contains, keys, Keyed.keys]

/-- The columns of the left row, and after them those of the right row whose key
the left row does not have. -/
def beside (left right : Row) : Row where
  columns := left.columns ++ right.columns.filter fun column => !left.contains column.1
  nodup_keys := by
    rw [Keyed.keys, List.map_append, List.nodup_append]
    refine ⟨left.nodup_keys, ?_, ?_⟩
    · exact right.nodup_keys.sublist (List.filter_sublist.map Prod.fst)
    · rintro a ha b hb rfl
      obtain ⟨entry, hentry, rfl⟩ := List.mem_map.mp hb
      have hnew := (List.mem_filter.mp hentry).2
      rw [contains_iff.mpr ha] at hnew
      simp at hnew

/-- Whether a key is new does not change on the way, because the keys of the
right row are distinct. -/
theorem columns_foldl_insert {columns : List (String × Value)}
    (h : (Keyed.keys columns).Nodup) (left : Row) :
    (columns.foldl (fun merged (key, value) =>
      if merged.contains key then merged else merged.insert key value) left).columns =
        left.columns ++ columns.filter fun column => !left.contains column.1 := by
  induction columns generalizing left with
  | nil => simp
  | cons column columns ih =>
      obtain ⟨key, value⟩ := column
      obtain ⟨hkey, hrest⟩ := List.nodup_cons.mp h
      rw [List.foldl_cons]
      simp only
      by_cases hold : left.contains key = true
      · rw [if_pos hold, ih hrest, List.filter_cons_of_neg (by simpa using hold)]
      · have hcolumns : (left.insert key value).columns = left.columns ++ [(key, value)] :=
          Keyed.insert_of_notMem fun hmem => hold (contains_iff.mpr hmem)
        have hfilter : columns.filter (fun column => !(left.insert key value).contains column.1) =
            columns.filter fun column => !left.contains column.1 := by
          apply List.filter_congr
          rintro ⟨k, v⟩ hk
          have hne : key ≠ k := by
            rintro rfl
            exact hkey (List.mem_map.mpr ⟨_, hk, rfl⟩)
          simp [contains, hcolumns, hne]
        rw [if_neg hold, ih hrest, hfilter, hcolumns, List.filter_cons_of_pos (by simpa using hold),
          List.append_assoc, List.singleton_append]

theorem merge_eq_beside (left right : Row) : left.merge right = left.beside right := by
  rw [Row.ext_iff]
  exact columns_foldl_insert right.nodup_keys left

/-- The requested keys, each once, with their values and null for missing ones. -/
def requested (row : Row) (wanted : List String) : Row where
  columns := wanted.eraseDups.map fun key => (key, (row.get? key).getD .null)
  nodup_keys := by
    have hkeys : Keyed.keys (wanted.eraseDups.map fun key => (key, (row.get? key).getD .null)) =
        wanted.eraseDups := by
      simp [Keyed.keys, Function.comp_def]
    rw [hkeys]
    exact (Keyed.firstOccurrences_eraseDups wanted).nodup

theorem pick_eq_requested (row : Row) (wanted : List String) :
    row.pick wanted = row.requested wanted := by
  rw [Row.ext_iff]
  exact Keyed.ofPairs_map _ wanted

end Row

end TableQuery
