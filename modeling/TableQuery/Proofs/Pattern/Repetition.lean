import TableQuery.Pattern.Captured
import TableQuery.Proofs.Pattern.Places

/-!
What a repetition takes. Its matches form a chain: the element matches where the
repetition is tried, and then again and again after a separator, if there is one,
for as long as each element ends further on than the one before it. That makes the
chain the longest one there is and the only one, and no chain is longer than the
text it goes through.
-/

namespace TableQuery.Pattern

open Text

variable {α : Type} [Capture α] {element : Pattern α} {separator : Option (Pattern α)}
  {input : String} {position : Nat}

theorem rep_matchAt?_of_first {first : Match α} (h : element.matchAt? input position = some first)
    (hlt : position < first.stop) :
    ∃ others, Chain (nextMatch? element separator input) first.stop others ∧
      (rep element separator).matchAt? input position =
        some ⟨Capture.list ((first :: others).map Match.value), (others.getLastD first).stop⟩ := by
  obtain ⟨others, hchain, helements⟩ := exists_elementsAt_eq
    (matchesAtPlaces_matchAt? element input)
    (fun p (_ : p ∈ separator) => matchesAtPlaces_matchAt? p input) h hlt
  obtain ⟨rest, hrest⟩ := exists_rest_of_matchAt? h
  refine ⟨others, hchain, ?_⟩
  rw [matchAt?_rep hrest, helements, List.getLast?_cons, Option.map_some,
    ← List.getLastD_eq_getLast?]

theorem exists_first_of_rep {m : Match α}
    (h : (rep element separator).matchAt? input position = some m) :
    ∃ first, element.matchAt? input position = some first ∧ position < first.stop := by
  obtain ⟨rest, hrest⟩ := exists_rest_of_matchAt? h
  rw [matchAt?_rep hrest] at h
  obtain ⟨last, hlast, -⟩ := Option.map_eq_some_iff.mp h
  exact exists_first_of_mem_elementsAt (List.mem_of_getLast? hlast)

/-- A repetition matches where its element does and takes something. There is then
one chain of matches from the end of that element on: the values of the repetition
are those of its elements and it ends where the last of them does, so that it never
takes a separator that no element follows. -/
theorem rep_matches_chain (element : Pattern α) (separator : Option (Pattern α)) (input : String)
    (position : Nat) :
    ((∃ m, (rep element separator).matchAt? input position = some m) ↔
      ∃ first, element.matchAt? input position = some first ∧ position < first.stop) ∧
    ∀ first, element.matchAt? input position = some first → position < first.stop →
      ∃ others,
        (∀ ms, Chain (nextMatch? element separator input) first.stop ms ↔ ms = others) ∧
        (rep element separator).matchAt? input position =
          some ⟨Capture.list ((first :: others).map Match.value), (others.getLastD first).stop⟩ ∧
        (∀ m ∈ first :: others, ∃ p, element.matchAt? input p = some m) ∧
        (first :: others).length ≤ (others.getLastD first).stop - position := by
  refine ⟨⟨fun ⟨m, hm⟩ => exists_first_of_rep hm, ?_⟩, ?_⟩
  · rintro ⟨first, hfirst, hlt⟩
    obtain ⟨others, -, hrep⟩ := rep_matchAt?_of_first hfirst hlt
    exact ⟨_, hrep⟩
  · intro first hfirst hlt
    obtain ⟨others, hchain, hrep⟩ := rep_matchAt?_of_first hfirst hlt
    refine ⟨others, ?_, hrep, ?_, ?_⟩
    · intro ms
      constructor
      · exact fun h => h.eq hchain
      · rintro rfl
        exact hchain
    · intro m hm
      rcases List.mem_cons.mp hm with rfl | hm
      · exact ⟨position, hfirst⟩
      · obtain ⟨p, hp⟩ := hchain.exists_next_of_mem hm
        obtain ⟨place, -, hplace⟩ := Option.bind_eq_some_iff.mp hp
        exact ⟨place, hplace⟩
    · have hlength := hchain.add_length_le
      rw [List.length_cons]
      omega

/-- An element that takes nothing counts if the separator before it took something. -/
theorem rep_matches_empty_elements :
    let element : Pattern Captured := .optional (.literal "a")
    let separator : Pattern Captured := .literal ","
    element.matchAt? "a,,b" 0 = some ⟨.text "a", 1⟩ ∧
      (rep element (some separator)).matchAt? "a,,b" 0 =
        some ⟨.list [.text "a", .nothing, .nothing], 3⟩ := by
  intro element separator
  have hfirst : element.matchAt? "a,,b" 0 = some ⟨.text "a", 1⟩ := by rfl
  refine ⟨hfirst, ?_⟩
  obtain ⟨others, hothers, hrep, -, -⟩ :=
    (rep_matches_chain element (some separator) "a,,b" 0).2 _ hfirst (by decide)
  have hchain : Chain (nextMatch? element (some separator) "a,,b") 1
      [⟨.nothing, 2⟩, ⟨.nothing, 3⟩] := by
    refine .step rfl (by decide) (.step rfl (by decide) (.stop ?_))
    intro m hm
    cases hm
  obtain rfl := (hothers _).mp hchain
  exact hrep

end TableQuery.Pattern
