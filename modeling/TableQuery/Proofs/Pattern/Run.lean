import TableQuery.Pattern

/-!
When each kind of pattern matches, said once so that the rules of a grammar can
be read off their definitions. A successful match is taken apart by the
equivalences; a sequence is put together part by part with `runSeq_cons`.
-/

namespace TableQuery.Pattern

variable {α : Type} {text mid rest : List Char} {v : α} {vs : List α}

section Chain

variable {step : List Char → Option (α × List Char)}

theorem chain_eq (step : List Char → Option (α × List Char)) (text : List Char) :
    chain step text =
      match step text with
      | some (v, mid) =>
        if mid.length < text.length then (v :: (chain step mid).1, (chain step mid).2)
        else ([], text)
      | none => ([], text) := by
  -- The recursion is on the length of the text, so this does not hold by computation.
  have h := chain.eq_1 step text
  exact h

theorem chain_of_none (h : step text = none) : chain step text = ([], text) := by
  rw [chain_eq, h]

theorem chain_of_some (h : step text = some (v, mid)) (hlt : mid.length < text.length) :
    chain step text = (v :: (chain step mid).1, (chain step mid).2) := by
  rw [chain_eq, h]
  simp only [if_pos hlt]

/-- A step that takes nothing ends a chain as if it had failed. -/
theorem chain_of_not_lt (h : ∀ v mid, step text = some (v, mid) → ¬mid.length < text.length) :
    chain step text = ([], text) := by
  cases hstep : step text with
  | none => exact chain_of_none hstep
  | some result =>
      rw [chain_eq, hstep]
      simp only [if_neg (h result.1 result.2 hstep)]

/-- A chain is taken apart from its front. A property of all chains holds of the
empty one, and is kept by one more step before a chain. -/
theorem chain_induction {motive : List Char → List α → List Char → Prop}
    (stop : ∀ text, motive text [] text)
    (more : ∀ text v mid vs rest, step text = some (v, mid) → motive mid vs rest →
      motive text (v :: vs) rest)
    (text : List Char) : motive text (chain step text).1 (chain step text).2 := by
  induction h : text.length using Nat.strongRecOn generalizing text with
  | ind n ih =>
      subst h
      by_cases hless : ∃ v mid, step text = some (v, mid) ∧ mid.length < text.length
      · obtain ⟨v, mid, hstep, hlt⟩ := hless
        rw [chain_of_some hstep hlt]
        exact more text v mid _ _ hstep (ih mid.length hlt mid rfl)
      · rw [chain_of_not_lt fun v mid hstep hlt => hless ⟨v, mid, hstep, hlt⟩]
        exact stop text

end Chain

variable [Capture α]

theorem run_literal_eq (expected : String) (text : List Char) :
    (literal expected : Pattern α).run text =
      if expected.toList.isPrefixOf text then
        some (Capture.text expected, text.drop expected.toList.length)
      else none := rfl

theorem run_regex_eq (re : Regex) (text : List Char) :
    (regex re : Pattern α).run text =
      match re.find? text with
      | some ⟨[], matched, after⟩ => some (Capture.text (String.ofList matched), after)
      | _ => none := rfl

theorem run_optional_eq (inner : Pattern α) (text : List Char) :
    (optional inner).run text = some ((inner.run text).getD (Capture.nothing, text)) := rfl

theorem run_any_nil : (any [] : Pattern α).run text = none := rfl

theorem run_any_cons (choice : Pattern α) (choices : List (Pattern α)) :
    (any (choice :: choices)).run text = (choice.run text).or ((any choices).run text) := rfl

theorem run_seq_eq (parts : List (Pattern α)) (text : List Char) :
    (seq parts).run text =
      (runSeq parts text).map fun (vs, rest) => (Capture.list vs, rest) := rfl

theorem run_filterMap_eq (inner : Pattern α) (f : α → Option α) (text : List Char) :
    (filterMap inner f).run text =
      (inner.run text).bind fun (v, rest) => (f v).map (·, rest) := rfl

theorem runSeq_nil : runSeq ([] : List (Pattern α)) text = some ([], text) := rfl

theorem runSeq_cons_eq (part : Pattern α) (parts : List (Pattern α)) (text : List Char) :
    runSeq (part :: parts) text =
      (part.run text).bind fun (v, mid) =>
        (runSeq parts mid).map fun (vs, rest) => (v :: vs, rest) := rfl

def nextElement (element : Pattern α) (separator : Option (Pattern α)) (text : List Char) :
    Option (α × List Char) :=
  (runSeparator separator text).bind element.run

theorem run_rep_eq (element : Pattern α) (separator : Option (Pattern α)) (text : List Char) :
    (rep element separator).run text =
      (chainFrom element.run (nextElement element separator) text).map fun (vs, rest) =>
        (Capture.list vs, rest) := rfl

theorem run_literal (expected : String) (rest : List Char) :
    (literal expected : Pattern α).run (expected.toList ++ rest) =
      some (Capture.text expected, rest) := by
  have hprefix := List.isPrefixOf_iff_prefix.mpr (List.prefix_append expected.toList rest)
  rw [run_literal_eq, if_pos hprefix, List.drop_left]

theorem run_literal_eq_some_iff {expected : String} :
    (literal expected : Pattern α).run text = some (v, rest) ↔
      text = expected.toList ++ rest ∧ v = Capture.text expected := by
  constructor
  · intro h
    rw [run_literal_eq] at h
    split at h
    · rename_i hprefix
      obtain ⟨tail, rfl⟩ := List.isPrefixOf_iff_prefix.mp hprefix
      rw [List.drop_left, Option.some.injEq, Prod.mk.injEq] at h
      exact ⟨by rw [h.2], h.1.symm⟩
    · simp at h
  · rintro ⟨rfl, rfl⟩
    exact run_literal expected rest

theorem run_optional_eq_some_iff {inner : Pattern α} :
    (optional inner).run text = some (v, rest) ↔
      inner.run text = some (v, rest) ∨
        inner.run text = none ∧ v = Capture.nothing ∧ rest = text := by
  rw [run_optional_eq]
  cases h : inner.run text with
  | none => simp [eq_comm]
  | some result => simp

theorem run_filterMap_eq_some_iff {inner : Pattern α} {f : α → Option α} :
    (filterMap inner f).run text = some (v, rest) ↔
      ∃ w, inner.run text = some (w, rest) ∧ f w = some v := by
  rw [run_filterMap_eq]
  cases h : inner.run text with
  | none => simp
  | some result =>
      obtain ⟨w, tail⟩ := result
      simp only [Option.bind_some, Option.map_eq_some_iff, Option.some.injEq, Prod.mk.injEq]
      constructor
      · rintro ⟨u, hu, rfl, rfl⟩
        exact ⟨w, ⟨rfl, rfl⟩, hu⟩
      · rintro ⟨u, ⟨rfl, rfl⟩, hu⟩
        exact ⟨v, hu, rfl, rfl⟩

theorem runSeq_cons {part : Pattern α} {parts : List (Pattern α)}
    (h : part.run text = some (v, mid)) (hs : runSeq parts mid = some (vs, rest)) :
    runSeq (part :: parts) text = some (v :: vs, rest) := by
  rw [runSeq_cons_eq, h, Option.bind_some]
  simp only [hs, Option.map_some]

theorem runSeq_nil_eq_some_iff :
    runSeq ([] : List (Pattern α)) text = some (vs, rest) ↔ vs = [] ∧ rest = text := by
  rw [runSeq_nil]
  simp [eq_comm]

theorem runSeq_cons_eq_some_iff {part : Pattern α} {parts : List (Pattern α)} :
    runSeq (part :: parts) text = some (vs, rest) ↔
      ∃ v mid tail, vs = v :: tail ∧ part.run text = some (v, mid) ∧
        runSeq parts mid = some (tail, rest) := by
  constructor
  · intro h
    rw [runSeq_cons_eq] at h
    simp only [Option.bind_eq_some_iff, Option.map_eq_some_iff, Prod.mk.injEq] at h
    obtain ⟨⟨v, mid⟩, hpart, ⟨tail, after⟩, hparts, rfl, rfl⟩ := h
    exact ⟨v, mid, tail, rfl, hpart, hparts⟩
  · rintro ⟨v, mid, tail, rfl, hpart, hparts⟩
    exact runSeq_cons hpart hparts

theorem run_seq {parts : List (Pattern α)} (h : runSeq parts text = some (vs, rest)) :
    (seq parts).run text = some (Capture.list vs, rest) := by
  rw [run_seq_eq, h, Option.map_some]

theorem run_seq_eq_some_iff {parts : List (Pattern α)} :
    (seq parts).run text = some (v, rest) ↔
      ∃ vs, v = Capture.list vs ∧ runSeq parts text = some (vs, rest) := by
  constructor
  · intro h
    rw [run_seq_eq] at h
    simp only [Option.map_eq_some_iff, Prod.mk.injEq] at h
    obtain ⟨⟨vs, after⟩, hparts, rfl, rfl⟩ := h
    exact ⟨vs, rfl, hparts⟩
  · rintro ⟨vs, rfl, h⟩
    exact run_seq h

theorem run_filterMap_seq {parts : List (Pattern α)} {f : α → Option α} {w : α}
    (h : runSeq parts text = some (vs, rest)) (hf : f (Capture.list vs) = some w) :
    (filterMap (seq parts) f).run text = some (w, rest) :=
  run_filterMap_eq_some_iff.mpr ⟨_, run_seq h, hf⟩

theorem run_filterMap_seq_eq_some_iff {parts : List (Pattern α)} {f : α → Option α} :
    (filterMap (seq parts) f).run text = some (v, rest) ↔
      ∃ vs, f (Capture.list vs) = some v ∧ runSeq parts text = some (vs, rest) := by
  rw [run_filterMap_eq_some_iff]
  constructor
  · rintro ⟨w, h, hf⟩
    obtain ⟨vs, rfl, hparts⟩ := run_seq_eq_some_iff.mp h
    exact ⟨vs, hf, hparts⟩
  · rintro ⟨vs, hf, hparts⟩
    exact ⟨_, run_seq hparts, hf⟩

theorem run_rep_eq_some_iff {element : Pattern α} {separator : Option (Pattern α)} :
    (rep element separator).run text = some (v, rest) ↔
      ∃ w mid, element.run text = some (w, mid) ∧ mid.length < text.length ∧
        v = Capture.list (w :: (chain (nextElement element separator) mid).1) ∧
        rest = (chain (nextElement element separator) mid).2 := by
  rw [run_rep_eq, chainFrom]
  cases h : element.run text with
  | none => simp
  | some result =>
      obtain ⟨w, mid⟩ := result
      by_cases hlt : mid.length < text.length
      · simp only [if_pos hlt, Option.map_some, Option.some.injEq, Prod.mk.injEq]
        constructor
        · rintro ⟨rfl, rfl⟩
          exact ⟨w, mid, ⟨rfl, rfl⟩, hlt, rfl, rfl⟩
        · rintro ⟨_, _, ⟨rfl, rfl⟩, -, rfl, rfl⟩
          exact ⟨rfl, rfl⟩
      · simp only [if_neg hlt, Option.map_none, Option.some.injEq, Prod.mk.injEq]
        constructor
        · simp
        · rintro ⟨_, _, ⟨rfl, rfl⟩, hlt', -⟩
          exact absurd hlt' hlt

theorem nextElement_eq_some_iff {element separator : Pattern α} :
    nextElement element (some separator) text = some (v, rest) ↔
      ∃ w mid, separator.run text = some (w, mid) ∧ element.run mid = some (v, rest) := by
  change ((separator.run text).map (·.2)).bind element.run = _ ↔ _
  rw [Option.bind_map, Option.bind_eq_some_iff]
  constructor
  · rintro ⟨⟨w, mid⟩, hw, hv⟩
    exact ⟨w, mid, hw, hv⟩
  · rintro ⟨w, mid, hw, hv⟩
    exact ⟨(w, mid), hw, hv⟩

end TableQuery.Pattern
