import TableQuery.Proofs.Dialect.Tokens

/-!
What the rules for truth values, null and numbers take. A number is ended by the
first character of another kind, and the words must end where a word ends, so a
name that merely begins like one of them is not cut in two.
-/

namespace TableQuery.Dialect

open Text Pattern Regex Cursor

variable {text rest s : List Char} {v : Phrase}

theorem run_bounded_eq_some_iff {word : String} (hword : IsKeyword word) (text : List Char)
    (ending : Cursor) :
    (caseless word).run ((boundary true).run some) (place none text) = some ending ↔
      ∃ s rest, FoldsTo word s ∧ Stops isWord rest ∧ text = s ++ rest ∧
        ending = place s.getLast? rest := by
  rw [run_caseless_eq_some hword]
  -- The last character taken is a letter, so what follows decides about the boundary.
  have hlast {s rest : List Char} (hs : FoldsTo word s) :
      (boundary true).run some (place (s.getLast?.or none) rest) = some ending ↔
        Stops isWord rest ∧ ending = place s.getLast? rest := by
    have hsne : s ≠ [] := by
      obtain ⟨c, tail, rfl, -⟩ := exists_head_of_foldsTo hs hword
      simp
    have hc : isWord (s.getLast hsne) = true :=
      isWord_of_foldsTo hs hword _ (List.getLast_mem hsne)
    rw [Option.or_none, List.getLast?_eq_some_getLast hsne, run_boundary]
    simp only [Option.ite_none_right_eq_some, boundary_place hc, Option.some.injEq]
    rw [eq_comm (b := ending)]
  constructor
  · rintro ⟨s, rest, rfl, hs, h⟩
    obtain ⟨hrest, rfl⟩ := (hlast hs).mp h
    exact ⟨s, rest, hs, hrest, rfl, rfl⟩
  · rintro ⟨s, rest, hs, hrest, rfl, rfl⟩
    exact ⟨s, rest, rfl, hs, (hlast hs).mpr ⟨hrest, rfl⟩⟩

theorem isKeyword_truthWord (b : Bool) : IsKeyword (truthWord b) := by
  cases b <;> decide

theorem isKeyword_null : IsKeyword "null" := by decide

theorem truthWord_unique {a b : Bool} {s t rest tail : List Char} (hs : FoldsTo (truthWord a) s)
    (ht : FoldsTo (truthWord b) t) (h : s ++ rest = t ++ tail) : a = b := by
  have hhead := head?_eq_of_foldsTo hs ht (isKeyword_truthWord a) (isKeyword_truthWord b) h
  cases a <;> cases b <;> first | rfl | exact absurd hhead (by decide)

theorem toBoolean?_text {b : Bool} (hs : FoldsTo (truthWord b) s) :
    Phrase.toBoolean? (.text (String.ofList s)) = some (.literal (.boolean b)) := by
  rw [Phrase.toBoolean?, String.toList_ofList]
  cases b with
  -- Only s and k have variants outside ASCII, and neither is in the word.
  | true =>
      have hlower : s.map Char.toLower = "true".toList := by
        rw [← show s.map foldCase = "true".toList from hs]
        apply List.map_congr_left
        intro c hc
        have hmem : foldCase c ∈ "true".toList := by
          rw [← show s.map foldCase = "true".toList from hs]
          exact List.mem_map_of_mem hc
        refine (foldCase_eq_toLower ?_ ?_).symm
        · rintro h
          exact absurd (h ▸ hmem) (by decide)
        · rintro h
          exact absurd (h ▸ hmem) (by decide)
      rw [hlower]
      rfl
  | false =>
      have hlength : s.length = 5 := by
        rw [← List.length_map foldCase, show s.map foldCase = "false".toList from hs]
        rfl
      have hlower : s.map Char.toLower ≠ "true".toList := by
        intro h
        rw [← List.length_map Char.toLower, h] at hlength
        exact absurd hlength (by decide)
      rw [decide_eq_false hlower]

theorem endAt?_truth_eq_some_iff {ending : Cursor} :
    (Regex.seq (.alt (.caseless "true") (.caseless "false")) (.boundary true)).endAt?
        (place none text) = some ending ↔
      ∃ b s rest, FoldsTo (truthWord b) s ∧ Stops isWord rest ∧ text = s ++ rest ∧
        ending = place s.getLast? rest := by
  have hword (b : Bool) :=
    run_bounded_eq_some_iff (isKeyword_truthWord b) text ending
  rw [endAt?_eq_run rfl]
  change ((caseless (truthWord true)).run _ _).or ((caseless (truthWord false)).run _ _) = _ ↔ _
  rw [Option.or_eq_some_iff]
  constructor
  · rintro (h | ⟨-, h⟩)
    · exact ⟨true, (hword true).mp h⟩
    · exact ⟨false, (hword false).mp h⟩
  · rintro ⟨b, s, rest, hs, hrest, rfl, rfl⟩
    cases b with
    | true => exact .inl ((hword true).mpr ⟨s, rest, hs, hrest, rfl, rfl⟩)
    | false =>
        refine .inr ⟨?_, (hword false).mpr ⟨s, rest, hs, hrest, rfl, rfl⟩⟩
        rw [Option.eq_none_iff_forall_ne_some]
        intro other h
        obtain ⟨t, tail, ht, -, htext, -⟩ :=
          (run_bounded_eq_some_iff (isKeyword_truthWord true) ..).mp h
        exact absurd (truthWord_unique hs ht htext) (by decide)

theorem run_boolean_eq_some_iff :
    boolean.run text = some (v, rest) ↔
      ∃ b s, FoldsTo (truthWord b) s ∧ Stops isWord rest ∧ text = s ++ rest ∧
        v = .literal (.boolean b) := by
  rw [boolean, run_filterMap_eq_some_iff]
  simp only [run_token, Option.map_eq_some_iff, Prod.mk.injEq, endAt?_truth_eq_some_iff]
  constructor
  · rintro ⟨w, ⟨ending, ⟨b, s, tail, hs, htail, rfl, rfl⟩, rfl, rfl⟩, hv⟩
    rw [upTo_place, toBoolean?_text hs, Option.some.injEq] at hv
    exact ⟨b, s, hs, htail, rfl, hv.symm⟩
  · rintro ⟨b, s, hs, hrest, rfl, rfl⟩
    refine ⟨_, ⟨_, ⟨b, s, rest, hs, hrest, rfl, rfl⟩, rfl, rfl⟩, ?_⟩
    rw [upTo_place, toBoolean?_text hs]

theorem run_null_eq_some_iff :
    null.run text = some (v, rest) ↔
      ∃ s, FoldsTo "null" s ∧ Stops isWord rest ∧ text = s ++ rest ∧ v = .literal .null := by
  have hword (ending : Cursor) := run_bounded_eq_some_iff isKeyword_null text ending
  rw [null, run_filterMap_eq_some_iff]
  have hloops : (Regex.seq (.caseless "null") (.boundary true)).loopsTake = true := rfl
  simp only [run_token, endAt?_eq_run hloops, Option.map_eq_some_iff, Prod.mk.injEq]
  constructor
  · rintro ⟨w, ⟨ending, h, rfl, rfl⟩, hv⟩
    obtain ⟨s, tail, hs, htail, rfl, rfl⟩ := (hword ending).mp h
    exact ⟨s, hs, htail, rfl, (Option.some.inj hv).symm⟩
  · rintro ⟨s, hs, hrest, rfl, rfl⟩
    exact ⟨_, ⟨_, (hword _).mpr ⟨s, rest, hs, hrest, rfl, rfl⟩, rfl, rfl⟩, rfl⟩

/-- What a number begins with. -/
def startsNumber (c : Char) : Bool := c.isDigit || c = '.' || c = '-'

theorem isNumberChar_of_startsNumber {c : Char} (hc : startsNumber c = true) :
    isNumberChar c = true := by
  simp only [startsNumber, isNumberChar, Bool.or_eq_true] at hc ⊢
  rcases hc with (hc | hc) | hc
  · exact .inl (.inl (isDigit_of_charIsDigit hc))
  · exact .inl (.inr hc)
  · exact .inr hc

theorem numberSet_contains :
    (⟨[.inside .digit, .range '.' '.', .range '-' '-'], false, false⟩ : CharSet).contains =
      isNumberChar := by
  funext c
  simp [CharSet.contains, isNumberChar, CharClass.contains, Bool.or_assoc]

/-- A text without a digit in front of which only a sign and a point stand has no
numeric value. -/
theorem startsNumber_of_numericPrefix? {n : Binary64} (h : numericPrefix? s = some n) :
    ∃ c tail, s = c :: tail ∧ startsNumber c = true := by
  obtain _ | ⟨c, tail⟩ := s
  · simp [numericPrefix?] at h
  · refine ⟨c, tail, rfl, ?_⟩
    refine Decidable.byContradiction fun hc => ?_
    simp only [startsNumber, Bool.or_eq_true, decide_eq_true_eq, not_or] at hc
    obtain ⟨⟨hdigit, hpoint⟩, hminus⟩ := hc
    simp [numericPrefix?, hdigit, hpoint, hminus] at h

theorem exists_numericPrefix?_of_isDigit {c : Char} (hc : c.isDigit = true) (tail : List Char) :
    ∃ n, numericPrefix? (c :: tail) = some n := by
  have hminus : c ≠ '-' := ne_of_class hc (by decide)
  simp [numericPrefix?, hminus, hc]

theorem ofDecimal_ne_nan (negative : Bool) (coefficient : Nat) (exponent : Int) :
    Binary64.ofDecimal negative coefficient exponent ≠ .nan := by
  rw [Binary64.ofDecimal]
  split
  · simp
  · split <;> simp [Binary64.ofQuotient]

theorem ne_nan_of_numericPrefix? {n : Binary64} (h : numericPrefix? s = some n) : n ≠ .nan := by
  unfold numericPrefix? at h
  dsimp only at h
  split at h
  · simp at h
  · rw [← Option.some.inj h]
    exact ofDecimal_ne_nan _ _ _

theorem run_number_eq_some_iff :
    number.run text = some (v, rest) ↔
      ∃ n s, Lexicon.accepted.number n s ∧ Stops isNumberChar rest ∧ text = s ++ rest ∧
        v = .literal (.number n) := by
  rw [number, run_filterMap_eq_some_iff]
  simp only [run_class_eq_some_iff, numberSet_contains]
  constructor
  · rintro ⟨w, ⟨s, hne, hs, hrest, rfl, rfl⟩, hv⟩
    simp only [Phrase.toNumber?, String.toList_ofList, Option.map_eq_some_iff] at hv
    obtain ⟨n, hn, rfl⟩ := hv
    exact ⟨n, s, ⟨hne, hs, hn⟩, hrest, rfl, rfl⟩
  · rintro ⟨n, s, ⟨hne, hs, hn⟩, hrest, rfl, rfl⟩
    refine ⟨_, ⟨s, hne, hs, hrest, rfl, rfl⟩, ?_⟩
    rw [Phrase.toNumber?, String.toList_ofList, hn, Option.map_some]

theorem run_number_ne_none {c : Char} (hc : c.isDigit = true) (tail : List Char) :
    number.run (c :: tail) ≠ none := by
  have hnumber := isNumberChar_of_startsNumber (c := c) (by simp [startsNumber, hc])
  obtain ⟨n, hn⟩ := exists_numericPrefix?_of_isDigit hc (tail.takeWhile isNumberChar)
  have h : number.run (c :: tail) = some (.literal (.number n), tail.dropWhile isNumberChar) := by
    refine run_number_eq_some_iff.mpr ⟨n, c :: tail.takeWhile isNumberChar, ⟨by simp, ?_, hn⟩,
      stops_dropWhile isNumberChar tail, ?_, rfl⟩
    · intro d hd
      rcases List.mem_cons.mp hd with rfl | hd
      · exact hnumber
      · exact all_takeWhile isNumberChar tail d hd
    · rw [List.cons_append, List.takeWhile_append_dropWhile]
  simp [h]

end TableQuery.Dialect
