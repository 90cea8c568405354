import TableQuery.Dialect
import TableQuery.Proofs.Dialect.Spelling
import TableQuery.Proofs.Pattern.Run
import TableQuery.Proofs.Regex.Run
import TableQuery.Proofs.Text.Runs

/-!
What the tokens of the dialect take. Each rule matches exactly when the text
begins with one of its spellings and does not go on in a way that the token
would have taken as well. The equivalences serve both readings of the grammar:
left to right they say that nothing else is read, right to left that everything
that is spelled is.
-/

namespace TableQuery.Dialect

open Text Pattern Regex Cursor

variable {text rest s : List Char} {v : Phrase}

theorem run_token (re : Regex) (text : List Char) :
    (token re).run text = (re.endAt? (place none text)).map fun ending =>
      (.text (String.ofList ((place none text).upTo ending)), ending.rest) := by
  rw [token, run_regex_eq, find?_anchored]
  cases re.endAt? (place none text) <;> rfl

theorem run_token_append {re : Regex} {p : Option Char}
    (h : re.endAt? (place none (s ++ rest)) = some (place p rest)) :
    (token re).run (s ++ rest) = some (.text (String.ofList s), rest) := by
  rw [run_token, h, Option.map_some, upTo_place, rest_place]

theorem run_class_eq_some_iff {set : CharSet} :
    (token (.plus true (.chars set))).run text = some (v, rest) ↔
      ∃ s, s ≠ [] ∧ (∀ c ∈ s, set.contains c = true) ∧ Stops set.contains rest ∧
        text = s ++ rest ∧ v = .text (String.ofList s) := by
  have hrun {s rest : List Char} (hne : s ≠ []) (hs : ∀ c ∈ s, set.contains c = true)
      (hrest : Stops set.contains rest) :
      (token (.plus true (.chars set))).run (s ++ rest) = some (.text (String.ofList s), rest) :=
    run_token_append ((endAt?_eq_run rfl _).trans (run_plus_chars hs hne hrest rfl))
  constructor
  · intro h
    have hs := all_takeWhile set.contains text
    have hrest := stops_dropWhile set.contains text
    have htext := List.takeWhile_append_dropWhile (p := set.contains) (l := text)
    by_cases hne : text.takeWhile set.contains = []
    · rw [hne, List.nil_append] at htext
      rw [run_token, endAt?_eq_run rfl, ← htext, run_plus_chars_of_stops hrest] at h
      simp at h
    · rw [← htext, hrun hne hs hrest, Option.some.injEq, Prod.mk.injEq] at h
      obtain ⟨rfl, rfl⟩ := h
      exact ⟨_, hne, hs, hrest, htext.symm, rfl⟩
  · rintro ⟨s, hne, hs, hrest, rfl, rfl⟩
    exact hrun hne hs hrest

theorem run_ws_eq_some_iff :
    ws.run text = some (v, rest) ↔
      ∃ s, Gap s ∧ Stops isSpace rest ∧ text = s ++ rest ∧ v = .text (String.ofList s) := by
  rw [ws, run_class_eq_some_iff, ofClass_contains]
  simp only [Gap, Blanks, and_assoc]
  rfl

theorem run_ws (hs : Gap s) (hrest : Stops isSpace rest) :
    ws.run (s ++ rest) = some (.text (String.ofList s), rest) :=
  run_ws_eq_some_iff.mpr ⟨s, hs, hrest, rfl, rfl⟩

theorem run_optionalWs (text : List Char) :
    ∃ v, optionalWs.run text = some (v, text.dropWhile isSpace) := by
  have hrest := stops_dropWhile isSpace text
  have htext := List.takeWhile_append_dropWhile (p := isSpace) (l := text)
  by_cases hne : text.takeWhile isSpace = []
  · rw [hne, List.nil_append] at htext
    refine ⟨.nothing, run_optional_eq_some_iff.mpr (.inr ⟨?_, rfl, htext⟩)⟩
    rw [Option.eq_none_iff_forall_ne_some]
    rintro ⟨w, tail⟩ h
    obtain ⟨s, ⟨hs, hblanks⟩, -, hst, -⟩ := run_ws_eq_some_iff.mp h
    obtain _ | ⟨c, s⟩ := s
    · exact hs rfl
    · rw [htext, hst, List.cons_append] at hrest
      exact Bool.eq_false_iff.mp hrest (hblanks c (by simp))
  · have h := run_ws ⟨hne, all_takeWhile isSpace text⟩ hrest
    rw [htext] at h
    exact ⟨_, run_optional_eq_some_iff.mpr (.inl h)⟩

theorem run_optionalWs_append (hs : Blanks s) (hrest : Stops isSpace rest) :
    ∃ v, optionalWs.run (s ++ rest) = some (v, rest) := by
  have h := run_optionalWs (s ++ rest)
  rwa [dropWhile_append hs hrest] at h

theorem exists_of_run_optionalWs (h : optionalWs.run text = some (v, rest)) :
    ∃ s, Blanks s ∧ Stops isSpace rest ∧ text = s ++ rest := by
  obtain ⟨w, hw⟩ := run_optionalWs text
  rw [h, Option.some.injEq, Prod.mk.injEq] at hw
  refine ⟨text.takeWhile isSpace, all_takeWhile isSpace text, ?_, ?_⟩
  · rw [hw.2]
    exact stops_dropWhile isSpace text
  · rw [hw.2, List.takeWhile_append_dropWhile]

theorem run_identifier_eq_some_iff :
    identifier.run text = some (v, rest) ↔
      ∃ name, IsName name ∧ Stops isWord rest ∧ text = name.toList ++ rest ∧ v = .text name := by
  rw [identifier, wordChar, run_class_eq_some_iff, ofClass_contains]
  constructor
  · rintro ⟨s, hne, hs, hrest, rfl, rfl⟩
    refine ⟨String.ofList s, ?_, hrest, by rw [String.toList_ofList], rfl⟩
    rw [IsName, String.toList_ofList]
    exact ⟨hne, hs⟩
  · rintro ⟨name, ⟨hne, hs⟩, hrest, rfl, rfl⟩
    exact ⟨name.toList, hne, hs, hrest, rfl, by rw [String.ofList_toList]⟩

theorem run_identifier {name : String} (h : IsName name) (hrest : Stops isWord rest) :
    identifier.run (name.toList ++ rest) = some (.text name, rest) :=
  run_identifier_eq_some_iff.mpr ⟨name, h, hrest, rfl, rfl⟩

theorem run_keyword_eq_some_iff {word : String} (hword : IsKeyword word) :
    (keyword word).run text = some (v, rest) ↔
      ∃ s, FoldsTo word s ∧ text = s ++ rest ∧ v = .text (String.ofList s) := by
  rw [keyword, run_token, endAt?_eq_run (loopsTake_caseless word)]
  simp only [Option.map_eq_some_iff, Prod.mk.injEq, run_caseless_eq_some hword,
    Option.some.injEq]
  constructor
  · rintro ⟨ending, ⟨s, tail, rfl, hs, rfl⟩, rfl, rfl⟩
    exact ⟨s, hs, rfl, by rw [upTo_place]⟩
  · rintro ⟨s, hs, rfl, rfl⟩
    exact ⟨_, ⟨s, rest, rfl, hs, rfl⟩, by rw [upTo_place], rfl⟩

end TableQuery.Dialect
