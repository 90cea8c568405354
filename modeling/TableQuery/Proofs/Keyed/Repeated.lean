import TableQuery.Proofs.Row.Columns

/-!
What is left of repeated keys. Inserting pairs one after another keeps every key
where it came first and with the value that came last, and it does not look at
the values, so changing them before or after comes to the same.
-/

namespace TableQuery.Keyed

variable {κ β γ : Type} [DecidableEq κ]

section Map

variable (f : β → γ)

theorem map_insert (key : κ) (value : β) (entries : List (κ × β)) :
    (insert key value entries).map (fun (k, v) => (k, f v)) =
      insert key (f value) (entries.map fun (k, v) => (k, f v)) := by
  induction entries with
  | nil => rfl
  | cons entry entries ih =>
      obtain ⟨k, v⟩ := entry
      simp only [insert, List.map_cons]
      split
      · rfl
      · rw [List.map_cons, ih]

theorem map_ofPairs (pairs : List (κ × β)) :
    (ofPairs pairs).map (fun (k, v) => (k, f v)) =
      ofPairs (pairs.map fun (k, v) => (k, f v)) := by
  suffices ∀ entries : List (κ × β),
      (pairs.foldl (fun entries pair => insert pair.1 pair.2 entries) entries).map
          (fun (k, v) => (k, f v)) =
        (pairs.map fun (k, v) => (k, f v)).foldl
          (fun entries pair => insert pair.1 pair.2 entries)
          (entries.map fun (k, v) => (k, f v)) from this []
  induction pairs with
  | nil => exact fun _ => rfl
  | cons pair pairs ih =>
      intro entries
      rw [List.foldl_cons, ih, map_insert, List.map_cons, List.foldl_cons]

omit [DecidableEq κ] in
theorem keys_map (entries : List (κ × β)) :
    keys (entries.map fun (k, v) => (k, f v)) = keys entries := by
  simp [keys]

end Map

theorem keys_ofPairs (pairs : List (κ × β)) : keys (ofPairs pairs) = (keys pairs).eraseDups := by
  have hunit : pairs.map (fun (k, _) => (k, ())) = (keys pairs).map fun k => (k, ()) := by
    simp [keys]
  rw [← keys_map (fun _ => ()), map_ofPairs (fun _ => ()), hunit, ofPairs_map]
  simp [keys, Function.comp_def]

theorem lookup_cons (key : κ) (value : β) (entries : List (κ × β)) (k : κ) :
    ((key, value) :: entries).lookup k = if k = key then some value else entries.lookup k := by
  by_cases h : k = key
  · simp [h]
  · rw [List.lookup_cons, beq_eq_false_iff_ne.mpr h, if_neg h]

theorem lookup_of_notMem {key : κ} {entries : List (κ × β)} (h : key ∉ keys entries) :
    entries.lookup key = none := by
  rw [List.lookup_eq_none_iff]
  intro entry hentry
  rw [bne_iff_ne]
  rintro rfl
  exact h (List.mem_map.mpr ⟨entry, hentry, rfl⟩)

theorem mem_iff_lookup {key : κ} {value : β} {entries : List (κ × β)}
    (hnodup : (keys entries).Nodup) : (key, value) ∈ entries ↔ entries.lookup key = some value := by
  induction entries with
  | nil => simp
  | cons entry entries ih =>
      obtain ⟨k, v⟩ := entry
      obtain ⟨hk, hrest⟩ := List.nodup_cons.mp hnodup
      rw [List.mem_cons, Prod.mk.injEq, lookup_cons, ih hrest]
      by_cases hkey : key = k
      · subst hkey
        rw [if_pos rfl, lookup_of_notMem hk]
        simp [eq_comm]
      · rw [if_neg hkey]
        simp [hkey]

theorem lookup_map (f : β → γ) (entries : List (κ × β)) (k : κ) :
    (entries.map fun (key, value) => (key, f value)).lookup k = (entries.lookup k).map f := by
  induction entries with
  | nil => rfl
  | cons entry entries ih =>
      rw [List.map_cons, lookup_cons, lookup_cons, ih]
      split <;> rfl

theorem lookup_filter (p : κ → Bool) (entries : List (κ × β)) (k : κ) :
    (entries.filter fun entry => p entry.1).lookup k =
      if p k then entries.lookup k else none := by
  induction entries with
  | nil => simp
  | cons entry entries ih =>
      obtain ⟨key, value⟩ := entry
      rw [List.filter_cons, lookup_cons]
      by_cases hkey : k = key
      · subst hkey
        by_cases hp : p k = true
        · rw [if_pos hp, if_pos hp, if_pos rfl, lookup_cons, if_pos rfl]
        · rw [if_neg hp, if_neg hp, ih, if_neg hp]
      · rw [if_neg hkey, ← ih]
        split
        · rw [lookup_cons, if_neg hkey]
        · rfl

theorem lookup_insert (key : κ) (value : β) (entries : List (κ × β)) (k : κ) :
    (insert key value entries).lookup k = if k = key then some value else entries.lookup k := by
  induction entries with
  | nil => exact lookup_cons key value [] k
  | cons entry entries ih =>
      obtain ⟨k', v⟩ := entry
      by_cases hentry : k' = key
      · rw [insert, if_pos hentry, lookup_cons, lookup_cons, hentry]
        split <;> rfl
      · rw [insert, if_neg hentry, lookup_cons, lookup_cons, ih]
        by_cases h : k = k'
        · rw [if_pos h, if_pos h, if_neg (h ▸ hentry)]
        · rw [if_neg h, if_neg h]

theorem lookup_ofPairs (pairs : List (κ × β)) (k : κ) :
    (ofPairs pairs).lookup k = pairs.reverse.lookup k := by
  suffices ∀ entries : List (κ × β),
      (pairs.foldl (fun entries pair => insert pair.1 pair.2 entries) entries).lookup k =
        (pairs.reverse.lookup k).or (entries.lookup k) by
    rw [ofPairs, this, List.lookup_nil, Option.or_none]
  induction pairs with
  | nil => exact fun _ => rfl
  | cons pair pairs ih =>
      intro entries
      rw [List.foldl_cons, ih, lookup_insert, List.reverse_cons, List.lookup_append,
        Option.or_assoc, lookup_cons, List.lookup_nil]
      split <;> rfl

/-- Distinct keys and their values determine a list. -/
theorem ext_of_nodup {entries entries' : List (κ × β)} (hnodup : (keys entries).Nodup)
    (hkeys : keys entries = keys entries')
    (hvalues : ∀ k, entries.lookup k = entries'.lookup k) : entries = entries' := by
  induction entries generalizing entries' with
  | nil => exact (List.map_eq_nil_iff.mp hkeys.symm).symm
  | cons entry entries ih =>
      obtain ⟨key, value⟩ := entry
      obtain ⟨hkey, hrest⟩ := List.nodup_cons.mp hnodup
      cases entries' with
      | nil => simp [keys] at hkeys
      | cons entry' entries' =>
          obtain ⟨key', value'⟩ := entry'
          obtain ⟨rfl, htail⟩ := List.cons.inj hkeys
          have hvalue := hvalues key
          rw [lookup_cons, lookup_cons, if_pos rfl, if_pos rfl, Option.some.injEq] at hvalue
          rw [hvalue, ih hrest htail]
          intro k
          by_cases hk : k = key
          · have hkey' : key ∉ keys entries' := by rwa [keys, ← htail]
            rw [hk, lookup_of_notMem hkey, lookup_of_notMem hkey']
          · have hother := hvalues k
            rwa [lookup_cons, lookup_cons, if_neg hk, if_neg hk] at hother

/-- All that counts are the keys in their order and the values that came last. -/
theorem ofPairs_congr {pairs pairs' : List (κ × β)} (hkeys : keys pairs = keys pairs')
    (hvalues : ∀ k, pairs.reverse.lookup k = pairs'.reverse.lookup k) :
    ofPairs pairs = ofPairs pairs' := by
  refine ext_of_nodup (nodup_keys_ofPairs pairs) ?_ fun k => ?_
  · rw [keys_ofPairs, keys_ofPairs, hkeys]
  · rw [lookup_ofPairs, lookup_ofPairs, hvalues]

theorem ofPairs_overwritten (before middle after : List (κ × β)) (key : κ)
    (value other last : β) :
    ofPairs (before ++ (key, value) :: (middle ++ (key, last) :: after)) =
      ofPairs (before ++ (key, other) :: (middle ++ (key, last) :: after)) := by
  refine ofPairs_congr (by simp [keys]) fun k => ?_
  simp only [List.reverse_append, List.reverse_cons, List.lookup_append, List.append_assoc,
    List.singleton_append, lookup_cons]
  by_cases hk : k = key <;> simp [hk]

end TableQuery.Keyed
