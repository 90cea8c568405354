import TableQuery.Row

/-!
Tuples of rows, one row from each of several tables. They are enumerated by the
indices of their rows, and the indices come in lexicographic order, every
possible combination once.
-/

namespace TableQuery

/-- All ways to take one index below each bound, the first index changing last. -/
def indexTuples : List Nat → List (List Nat)
  | [] => [[]]
  | bound :: bounds => (List.range bound).flatMap fun i => (indexTuples bounds).map (i :: ·)

theorem mem_indexTuples_iff {bounds indices : List Nat} :
    indices ∈ indexTuples bounds ↔
      indices.length = bounds.length ∧ ∀ pair ∈ indices.zip bounds, pair.1 < pair.2 := by
  induction bounds generalizing indices with
  | nil => simp [indexTuples]
  | cons bound bounds ih =>
      simp only [indexTuples, List.mem_flatMap, List.mem_range, List.mem_map, ih]
      constructor
      · rintro ⟨i, hi, rest, ⟨hlength, hrest⟩, rfl⟩
        refine ⟨by simp [hlength], ?_⟩
        rw [List.zip_cons_cons, List.forall_mem_cons]
        exact ⟨hi, hrest⟩
      · rintro ⟨hlength, h⟩
        obtain _ | ⟨i, rest⟩ := indices
        · simp at hlength
        · rw [List.zip_cons_cons, List.forall_mem_cons] at h
          exact ⟨i, h.1, rest, ⟨by simpa using hlength, h.2⟩, rfl⟩

/-- No tuple comes twice, and each comes before all that are greater in the
lexicographic order. -/
theorem pairwise_lt_indexTuples (bounds : List Nat) : (indexTuples bounds).Pairwise (· < ·) := by
  induction bounds with
  | nil => simp [indexTuples]
  | cons bound bounds ih =>
      rw [indexTuples, List.pairwise_flatMap]
      constructor
      · intro i _
        rw [List.pairwise_map]
        exact ih.imp fun h => List.cons_lt_cons_iff.mpr (.inr ⟨rfl, h⟩)
      · refine List.pairwise_lt_range.imp ?_
        intro i j hij a ha b hb
        obtain ⟨a, -, rfl⟩ := List.mem_map.mp ha
        obtain ⟨b, -, rfl⟩ := List.mem_map.mp hb
        exact List.cons_lt_cons_iff.mpr (.inl hij)

/-- The rows with these indices, one from each table. -/
def rowsAt (tables : List Table) (indices : List Nat) : List Row :=
  (tables.zip indices).filterMap fun (table, i) => table[i]?

/-- The same tuples, without indices. -/
def rowTuples : List Table → List (List Row)
  | [] => [[]]
  | table :: tables => table.flatMap fun row => (rowTuples tables).map (row :: ·)

theorem map_getElem?_range (table : Table) :
    (List.range table.length).map (fun i => table[i]?) = table.map some := by
  apply List.ext_getElem
  · simp
  · intro i h₁ h₂
    simp at h₁
    simp [h₁]

theorem map_rowsAt_indexTuples (tables : List Table) :
    (indexTuples (tables.map List.length)).map (rowsAt tables) = rowTuples tables := by
  induction tables with
  | nil => rfl
  | cons table tables ih =>
      have hrows (i : Nat) : ((indexTuples (tables.map List.length)).map (i :: ·)).map
          (rowsAt (table :: tables)) =
          (rowTuples tables).map fun rows => (table[i]?).toList ++ rows := by
        rw [← ih, List.map_map, List.map_map]
        apply List.map_congr_left
        intro indices _
        cases h : table[i]? <;> simp [rowsAt, h]
      have hflat := congrArg (List.flatMap fun row? : Option Row =>
        (rowTuples tables).map fun rows => row?.toList ++ rows) (map_getElem?_range table)
      rw [List.flatMap_map, List.flatMap_map] at hflat
      rw [List.map_cons, indexTuples, List.map_flatMap, rowTuples]
      simp only [hrows]
      exact hflat

end TableQuery
