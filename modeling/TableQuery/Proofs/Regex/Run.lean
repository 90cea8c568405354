import TableQuery.Proofs.Text.Folding
import TableQuery.Proofs.Regex.Backtracking
import TableQuery.Proofs.Text.Runs

/-!
What the expressions of tokens match. A cursor is determined by the character
before it and the text after it, and both are written out here, so that a match
is an equation between texts: what was there, what was taken and what is left.
The expressions are runs of one class, words in any case and quoted bodies; for
each of them the preferred match is the only candidate.
-/

namespace TableQuery

open Text

namespace Cursor

/-- The place after a character and before a text. -/
def place (previous : Option Char) (rest : List Char) : Cursor :=
  { first rest with previous }

theorem first_eq_place (text : List Char) : first text = place none text := rfl

@[simp] theorem rest_place (p : Option Char) (rest : List Char) : (place p rest).rest = rest := rfl

@[simp] theorem previous_place (p : Option Char) (rest : List Char) :
    (place p rest).previous = p := rfl

@[simp] theorem remaining_place (p : Option Char) (rest : List Char) :
    (place p rest).remaining = rest.length := rfl

@[simp] theorem next?_place_nil (p : Option Char) : (place p []).next? = none := rfl

@[simp] theorem next?_place_cons (p : Option Char) (c : Char) (rest : List Char) :
    (place p (c :: rest)).next? = some (c, place (some c) rest) := rfl

theorem upTo_place (p q : Option Char) (s rest : List Char) :
    (place p (s ++ rest)).upTo (place q rest) = s := by
  simp [upTo]

/-- After a word character, a word ends where no other one follows. -/
theorem boundary_place {c : Char} {rest : List Char} (hc : isWord c = true) :
    (Assertion.boundary true true).holds (place (some c) rest) = true ↔ Stops isWord rest := by
  cases rest with
  | nil => simp [Assertion.holds, besideWords, hc]
  | cons d rest => simp [Assertion.holds, besideWords, hc]

end Cursor

namespace Regex

open Cursor

variable {β : Type} {set : CharSet} {k : Cursor → Option β} {p : Option Char}
  {s rest text : List Char}

@[simp] theorem run_chars_nil : run (chars set) k (place p []) = none := rfl

theorem run_chars_cons (c : Char) :
    run (chars set) k (place p (c :: rest)) =
      if set.contains c then k (place (some c) rest) else none := rfl

theorem run_alt (first second : Regex) (cursor : Cursor) :
    run (alt first second) k cursor = (run first k cursor).or (run second k cursor) := rfl

theorem run_boundary (cursor : Cursor) :
    run (boundary true) k cursor =
      if (Assertion.boundary true true).holds cursor = true then k cursor else none := rfl

theorem run_sequence (res : List Regex) (k : Cursor → Option β) (cursor : Cursor) :
    run (sequence res) k cursor = res.foldr run k cursor := by
  induction res generalizing cursor with
  | nil => rfl
  | cons re res ih =>
      cases res with
      | nil => rfl
      | cons other res =>
          change run re (run (sequence (other :: res)) k) cursor = run re _ cursor
          congr 1
          funext next
          exact ih next

theorem getLast?_cons_or (c : Char) (s : List Char) :
    (c :: s).getLast?.or p = s.getLast?.or (some c) := by
  cases s with
  | nil => rfl
  | cons d s => simp [List.getLast?_cons]

/-- A greedy star tries its body once more before it goes on. -/
theorem run_star (body : Regex) (cursor : Cursor) :
    run (star true body) k cursor =
      (run body (fun next =>
        if next.remaining < cursor.remaining then run (star true body) k next else none)
        cursor).or (k cursor) :=
  repeatStep.eq_1 true (run body) k cursor

theorem run_star_chars_of_stops (h : Stops set.contains rest) :
    run (star true (chars set)) k (place p rest) = k (place p rest) := by
  rw [run_star]
  cases rest with
  | nil => rfl
  | cons c rest =>
      have hc : set.contains c = false := h
      rw [run_chars_cons, hc]
      rfl

theorem run_star_chars_cons {c : Char} (hc : set.contains c = true) :
    run (star true (chars set)) k (place p (c :: rest)) =
      (run (star true (chars set)) k (place (some c) rest)).or (k (place p (c :: rest))) := by
  rw [run_star, run_chars_cons, if_pos hc]
  simp

theorem run_plus_chars_of_stops (h : Stops set.contains rest) :
    run (plus true (chars set)) k (place p rest) = none := by
  cases rest with
  | nil => rfl
  | cons c rest =>
      have hc : set.contains c = false := h
      rw [run, run_chars_cons, hc]
      rfl

/-- A run goes on for as long as it can, if what follows it lets it stop
there. -/
theorem run_star_chars (hs : ∀ c ∈ s, set.contains c = true) (hrest : Stops set.contains rest)
    (hk : (k (place (s.getLast?.or p) rest)).isSome) :
    run (star true (chars set)) k (place p (s ++ rest)) = k (place (s.getLast?.or p) rest) := by
  induction s generalizing p with
  | nil => exact run_star_chars_of_stops hrest
  | cons c s ih =>
      rw [getLast?_cons_or] at hk ⊢
      -- Stopping earlier is tried only if going on fails, which the end of the run does not.
      rw [List.cons_append, run_star_chars_cons (hs c List.mem_cons_self),
        ih (fun e he => hs e (List.mem_cons_of_mem _ he)) hk]
      obtain ⟨b, hb⟩ := Option.isSome_iff_exists.mp hk
      rw [hb, Option.some_or]

theorem run_plus_chars (hs : ∀ c ∈ s, set.contains c = true) (hne : s ≠ [])
    (hrest : Stops set.contains rest) (hk : (k (place s.getLast? rest)).isSome) :
    run (plus true (chars set)) k (place p (s ++ rest)) = k (place s.getLast? rest) := by
  obtain ⟨c, s, rfl⟩ := List.exists_cons_of_ne_nil hne
  have hlast : (c :: s).getLast? = s.getLast?.or (some c) := by
    rw [← getLast?_cons_or (p := none), Option.or_none]
  rw [hlast] at hk ⊢
  rw [List.cons_append, run, run_chars_cons, if_pos (hs c List.mem_cons_self)]
  exact run_star_chars (fun e he => hs e (List.mem_cons_of_mem _ he)) hrest hk

@[simp] theorem range_contains (c d : Char) :
    (SetItem.range c c).contains d = decide (d = c) := by
  rw [Bool.eq_iff_iff]
  simp only [SetItem.contains, Bool.and_eq_true, decide_eq_true_eq]
  constructor
  · rintro ⟨h₁, h₂⟩
    exact Char.le_antisymm h₂ h₁
  · rintro rfl
    exact ⟨Char.le_refl d, Char.le_refl d⟩

@[simp] theorem inside_contains (cls : CharClass) (d : Char) :
    (SetItem.inside cls).contains d = cls.contains d := rfl

@[simp] theorem singleton_contains (c d : Char) :
    (CharSet.singleton c).contains d = decide (d = c) := by
  simp [CharSet.contains, CharSet.singleton]

@[simp] theorem anyOnLine_contains (d : Char) :
    CharSet.anyOnLine.contains d = decide (d ≠ '\n') := by
  simp [CharSet.contains, CharSet.anyOnLine]

@[simp] theorem ofClass_contains (cls : CharClass) :
    (CharSet.ofClass cls).contains = cls.contains := by
  funext d
  simp [CharSet.contains, CharSet.ofClass, SetItem.contains]

theorem contains_caseless {c d : Char} (hc : c.isAlpha = true) :
    ({ CharSet.singleton c with caseless := true } : CharSet).contains d = true ↔
      foldCase d = c.toLower := by
  rw [← mem_caseVariants_iff_foldCase hc]
  simp [CharSet.contains, CharSet.singleton]

theorem run_letter_eq_some {c : Char} {b : β} (hc : c.isAlpha = true) :
    run (chars { CharSet.singleton c with caseless := true }) k (place p text) = some b ↔
      ∃ d rest, text = d :: rest ∧ foldCase d = c.toLower ∧ k (place (some d) rest) = some b := by
  cases text with
  | nil => simp
  | cons d text =>
      rw [run_chars_cons]
      simp only [contains_caseless hc, Option.ite_none_right_eq_some]
      constructor
      · rintro ⟨hd, h⟩
        exact ⟨d, text, rfl, hd, h⟩
      · rintro ⟨d, rest, htext, hd, h⟩
        obtain ⟨rfl, rfl⟩ := List.cons.inj htext
        exact ⟨hd, h⟩

theorem run_letters_eq_some {letters : List Char} {b : β}
    (hletters : ∀ c ∈ letters, c.isAlpha = true) :
    (letters.map fun c => chars { CharSet.singleton c with caseless := true }).foldr run k
        (place p text) = some b ↔
      ∃ s rest, text = s ++ rest ∧ s.map foldCase = letters.map Char.toLower ∧
        k (place (s.getLast?.or p) rest) = some b := by
  induction letters generalizing p text with
  | nil =>
      simp only [List.map_nil, List.foldr_nil, List.map_eq_nil_iff]
      constructor
      · exact fun h => ⟨[], text, rfl, rfl, h⟩
      · rintro ⟨s, rest, rfl, rfl, h⟩
        exact h
  | cons c letters ih =>
      obtain ⟨hc, hrest⟩ := List.forall_mem_cons.mp hletters
      rw [List.map_cons, List.foldr_cons, run_letter_eq_some hc]
      simp only [ih hrest]
      constructor
      · rintro ⟨d, text, rfl, hd, s, rest, rfl, hs, h⟩
        refine ⟨d :: s, rest, rfl, by rw [List.map_cons, List.map_cons, hd, hs], ?_⟩
        rwa [getLast?_cons_or]
      · rintro ⟨s, rest, rfl, hs, h⟩
        obtain _ | ⟨d, s⟩ := s
        · simp at hs
        · rw [List.map_cons, List.map_cons, List.cons.injEq] at hs
          refine ⟨d, s ++ rest, rfl, hs.1, s, rest, rfl, hs.2, ?_⟩
          rwa [← getLast?_cons_or]

theorem loopsTake_caseless (word : String) : (caseless word).loopsTake = true := by
  rw [caseless]
  induction word.toList with
  | nil => rfl
  | cons c letters ih =>
      cases letters with
      | nil => rfl
      | cons d letters => exact ih

theorem run_caseless_eq_some {word : String} {b : β}
    (hword : IsKeyword word) :
    run (caseless word) k (place p text) = some b ↔
      ∃ s rest, text = s ++ rest ∧ FoldsTo word s ∧ k (place (s.getLast?.or p) rest) = some b := by
  rw [caseless, run_sequence]
  exact run_letters_eq_some hword.2

/-! ### Searching for an anchored expression

An anchor fails everywhere but at the start, so the search finds what matches
there or nothing. -/

theorem findFrom?_anchored (re : Regex) (c : Char) (rest : List Char) :
    re.anchored.findFrom? (place (some c) rest) = none := by
  have hrun (d : Char) (tail : List Char) :
      re.anchored.endAt? (place (some d) tail) = none := rfl
  induction rest generalizing c with
  | nil =>
      rw [findFrom?, hrun]
      rfl
  | cons d rest ih =>
      rw [findFrom?, hrun]
      simp only [next?_place_cons]
      rw [ih]
      rfl

theorem find?_anchored (re : Regex) (text : List Char) :
    re.anchored.find? text = (re.endAt? (place none text)).map fun ending =>
      ⟨[], (place none text).upTo ending, ending.rest⟩ := by
  have hrun : re.anchored.endAt? (place none text) = re.endAt? (place none text) := rfl
  rw [find?, first_eq_place, findFrom?, hrun]
  cases h : re.endAt? (place none text) with
  | some ending => rfl
  | none =>
      cases text with
      | nil => rfl
      | cons c text =>
          simp only [next?_place_cons]
          rw [findFrom?_anchored]
          rfl

end Regex

end TableQuery
