/-!
Lists of pairs with distinct keys, in the order in which the keys were first
inserted. Inserting a key that is present replaces its value where it stands, so
the order of such a list only ever grows at the end. Rows and the objects of
documents are both of this kind.
-/

namespace TableQuery.Keyed

variable {κ β : Type} [DecidableEq κ]

/-- Replaces the value of `key` in place, or appends the pair. -/
def insert (key : κ) (value : β) : List (κ × β) → List (κ × β)
  | [] => [(key, value)]
  | (k, v) :: rest =>
    if k = key then (key, value) :: rest else (k, v) :: insert key value rest

/-- Inserts, and gives back the value that stood under `key` before, in one walk. -/
def exchange (key : κ) (value : β) : List (κ × β) → Option β × List (κ × β)
  | [] => (none, [(key, value)])
  | (k, v) :: rest =>
    if k = key then (some v, (key, value) :: rest)
    else ((exchange key value rest).1, (k, v) :: (exchange key value rest).2)

/-- Inserts pairs one after another, so a repeated key keeps its first place and
gets its last value. -/
def ofPairs (pairs : List (κ × β)) : List (κ × β) :=
  pairs.foldl (fun entries pair => insert pair.1 pair.2 entries) []

def keys (entries : List (κ × β)) : List κ :=
  entries.map Prod.fst

theorem keys_insert (key : κ) (value : β) (entries : List (κ × β)) :
    keys (insert key value entries) =
      if key ∈ keys entries then keys entries else keys entries ++ [key] := by
  induction entries with
  | nil => simp [insert, keys]
  | cons entry rest ih =>
      obtain ⟨k, v⟩ := entry
      by_cases h : k = key
      · simp [insert, keys, h]
      · have h' : key ≠ k := fun e => h e.symm
        simp only [insert, if_neg h, keys, List.map_cons, List.mem_cons, h', false_or] at ih ⊢
        rw [ih]
        by_cases present : key ∈ rest.map Prod.fst <;> simp [present]

theorem nodup_keys_insert {key : κ} {value : β} {entries : List (κ × β)}
    (h : (keys entries).Nodup) : (keys (insert key value entries)).Nodup := by
  rw [keys_insert]
  split
  · exact h
  · rename_i absent
    rw [List.nodup_append]
    refine ⟨h, by simp, ?_⟩
    intro a ha b hb
    rw [List.mem_singleton.1 hb]
    exact fun e => absent (e ▸ ha)

/-- The walk finds the value that a lookup finds, and leaves what an insertion leaves. -/
theorem exchange_eq (key : κ) (value : β) (entries : List (κ × β)) :
    exchange key value entries = (entries.lookup key, insert key value entries) := by
  induction entries with
  | nil => rfl
  | cons entry rest ih =>
      obtain ⟨k, v⟩ := entry
      by_cases h : k = key
      · subst h
        simp [exchange, insert]
      · have hlookup : (key == k) = false := beq_eq_false_iff_ne.mpr (Ne.symm h)
        rw [exchange, if_neg h, ih, insert, if_neg h, List.lookup_cons, hlookup]

theorem nodup_keys_ofPairs (pairs : List (κ × β)) : (keys (ofPairs pairs)).Nodup := by
  suffices ∀ entries : List (κ × β), (keys entries).Nodup →
      (keys (pairs.foldl (fun entries pair => insert pair.1 pair.2 entries) entries)).Nodup from
    this [] (by simp [keys])
  induction pairs with
  | nil => exact fun _ h => h
  | cons pair rest ih => exact fun _ h => ih _ (nodup_keys_insert h)

end TableQuery.Keyed
