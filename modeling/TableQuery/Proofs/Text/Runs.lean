import TableQuery.Text.Classes

/-!
Cutting a text after a run of characters of one class. A token that takes as
many characters as it can is determined by two facts: every character it takes
is in the class, and the text after it does not go on with one. The second fact
is named `Stops`, because it is what the neighbours of a token have to promise
each other.
-/

namespace TableQuery.Text

variable {p q : Char → Bool} {s rest : List Char}

/-- The text does not go on with a character of the class. -/
def Stops (p : Char → Bool) : List Char → Prop
  | [] => True
  | c :: _ => p c = false

@[simp] theorem stops_nil : Stops p [] := trivial

@[simp] theorem stops_cons {c : Char} : Stops p (c :: rest) ↔ p c = false := Iff.rfl

/-- Characters that a class tells apart are different. -/
theorem ne_of_class {c d : Char} (hc : p c = true) (hd : p d = false) : c ≠ d := by
  rintro rfl
  rw [hc] at hd
  simp at hd

theorem stops_dropWhile (p : Char → Bool) (text : List Char) : Stops p (text.dropWhile p) := by
  induction text with
  | nil => trivial
  | cons c rest ih =>
      rw [List.dropWhile_cons]
      split
      · exact ih
      · rename_i hc
        simpa using hc

theorem all_takeWhile (p : Char → Bool) (text : List Char) : ∀ c ∈ text.takeWhile p, p c = true :=
  List.all_eq_true.mp List.all_takeWhile

theorem takeWhile_of_stops (h : Stops p rest) : rest.takeWhile p = [] := by
  cases rest with
  | nil => rfl
  | cons c rest => rw [List.takeWhile_cons_of_neg (by simpa using h)]

theorem dropWhile_of_stops (h : Stops p rest) : rest.dropWhile p = rest := by
  cases rest with
  | nil => rfl
  | cons c rest => rw [List.dropWhile_cons_of_neg (by simpa using h)]

theorem takeWhile_append (hs : ∀ c ∈ s, p c = true) (h : Stops p rest) :
    (s ++ rest).takeWhile p = s := by
  rw [List.takeWhile_append_of_pos hs, takeWhile_of_stops h, List.append_nil]

theorem dropWhile_append (hs : ∀ c ∈ s, p c = true) (h : Stops p rest) :
    (s ++ rest).dropWhile p = rest := by
  rw [List.dropWhile_append_of_pos hs, dropWhile_of_stops h]

/-- What stops a class ends the run at the latest where it begins. -/
theorem takeWhile_append_of_stops (s : List Char) (h : Stops p rest) :
    (s ++ rest).takeWhile p = s.takeWhile p := by
  induction s with
  | nil => exact takeWhile_of_stops h
  | cons c s ih => rw [List.cons_append, List.takeWhile_cons, List.takeWhile_cons, ih]

theorem dropWhile_append_of_stops (s : List Char) (h : Stops p rest) :
    (s ++ rest).dropWhile p = s.dropWhile p ++ rest := by
  induction s with
  | nil => exact dropWhile_of_stops h
  | cons c s ih =>
      rw [List.cons_append, List.dropWhile_cons, List.dropWhile_cons, ih]
      split <;> rfl

/-- A run that ends before the end of a text ends there whatever comes after the text. -/
theorem cut_append {c : Char} (h : s.dropWhile p = c :: rest) (tail : List Char) :
    (s ++ tail).takeWhile p = s.takeWhile p ∧ (s ++ tail).dropWhile p = c :: (rest ++ tail) := by
  have hs : s ++ tail = s.takeWhile p ++ (c :: rest ++ tail) := by
    rw [← h, ← List.append_assoc, List.takeWhile_append_dropWhile]
  have hstops : Stops p (c :: rest ++ tail) := (h ▸ stops_dropWhile p s : Stops p (c :: rest))
  rw [hs]
  exact ⟨takeWhile_append (all_takeWhile p s) hstops, dropWhile_append (all_takeWhile p s) hstops⟩

/-- A text has one cut between a run of the class and what does not go on with
it. -/
theorem run_unique {t tail : List Char} (hs : ∀ c ∈ s, p c = true) (hrest : Stops p rest)
    (ht : ∀ c ∈ t, p c = true) (htail : Stops p tail) (h : s ++ rest = t ++ tail) :
    s = t ∧ rest = tail := by
  have hst : s = t := by
    rw [← takeWhile_append hs hrest, h, takeWhile_append ht htail]
  subst hst
  exact ⟨rfl, List.append_cancel_left h⟩

/-- A run of the class, and what cannot follow it. -/
theorem stops_append (hs : ∀ c ∈ s, q c = false) (h : Stops q rest) : Stops q (s ++ rest) := by
  cases s with
  | nil => exact h
  | cons c s => exact hs c (by simp)

theorem stops_of_all (hs : ∀ c ∈ s, q c = false) : Stops q s := by
  simpa using stops_append hs stops_nil

end TableQuery.Text
