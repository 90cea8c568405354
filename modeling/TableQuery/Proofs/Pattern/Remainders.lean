import TableQuery.Proofs.Pattern.Repetition
import TableQuery.Proofs.Pattern.Run

/-!
Matching without offsets. What a pattern makes of a text depends on nothing but the
text after the place where it is tried, so it can be read off by matching that text
on its own: the values are the same, and the offset where a match ends is the place
before what it leaves.
-/

namespace TableQuery.Pattern

open Text

/-- The same outcome, with what is left of a text on one side and its place on the
other. -/
inductive Agree {β : Type} (input : String) : Option (β × List Char) → Option (Match β) → Prop
  | none : Agree input none none
  | some {v : β} {stop : Nat} {rest : List Char} : dropBytes? stop input.toList = some rest →
      Agree input (some (v, rest)) (some ⟨v, stop⟩)

namespace Agree

variable {β γ : Type} {input : String} {result other : Option (β × List Char)}
  {found later : Option (Match β)}

theorem exists_stop {v : β} {rest : List Char} (h : Agree input result found)
    (hresult : result = .some (v, rest)) :
    ∃ stop, found = .some ⟨v, stop⟩ ∧ dropBytes? stop input.toList = .some rest := by
  cases h with
  | none => simp at hresult
  | some hstop =>
      obtain ⟨rfl, rfl⟩ := Prod.mk.inj (Option.some.inj hresult)
      exact ⟨_, rfl, hstop⟩

theorem exists_rest {m : Match β} (h : Agree input result found) (hfound : found = .some m) :
    ∃ rest, result = .some (m.value, rest) ∧ dropBytes? m.stop input.toList = .some rest := by
  cases h with
  | none => simp at hfound
  | some hstop =>
      obtain rfl := Option.some.inj hfound
      exact ⟨_, rfl, hstop⟩

theorem or (h : Agree input result found) (h' : Agree input other later) :
    Agree input (result.or other) (found.or later) := by
  cases h with
  | none => exact h'
  | some hstop => exact .some hstop

theorem bind {f : β × List Char → Option (γ × List Char)} {g : Match β → Option (Match γ)}
    (h : Agree input result found)
    (hnext : ∀ v stop rest, dropBytes? stop input.toList = .some rest →
      Agree input (f (v, rest)) (g ⟨v, stop⟩)) :
    Agree input (result.bind f) (found.bind g) := by
  cases h with
  | none => exact .none
  | some hstop => exact hnext _ _ _ hstop

theorem map (f : β → γ) (h : Agree input result found) :
    Agree input (result.map fun (v, rest) => (f v, rest))
      (found.map fun m => ⟨f m.value, m.stop⟩) := by
  cases h with
  | none => exact .none
  | some hstop => exact .some hstop

end Agree

variable {α : Type} {input : String} {position : Nat} {text : List Char}

theorem chain_of_chain {step : List Char → Option (α × List Char)}
    {next? : Nat → Option (Match α)} {first : Match α} {ms : List (Match α)}
    (hagree : ∀ position text, dropBytes? position input.toList = some text →
      Agree input (step text) (next? position))
    (h : Chain next? first.stop ms) (htext : dropBytes? first.stop input.toList = some text) :
    ∃ rest, chain step text = (ms.map Match.value, rest) ∧
      dropBytes? (ms.getLastD first).stop input.toList = some rest := by
  generalize hposition : first.stop = position at h htext
  induction h generalizing first text with
  | stop hstop =>
      refine ⟨text, chain_of_not_lt fun v mid hstep hlt => ?_,
        by rwa [List.getLastD_nil, hposition]⟩
      obtain ⟨stop, hm, hmid⟩ := (hagree _ _ htext).exists_stop hstep
      exact Nat.not_lt.mpr (hstop _ hm) ((lt_iff_length_lt htext hmid).mpr hlt)
  | @step position m ms hnext hlt _ ih =>
      obtain ⟨mid, hstep, hmid⟩ := (hagree _ _ htext).exists_rest hnext
      obtain ⟨rest, hchain, hrest⟩ := ih rfl hmid
      refine ⟨rest, ?_, by rwa [List.getLastD_cons]⟩
      rw [chain_of_some hstep ((lt_iff_length_lt htext hmid).mp hlt), hchain, List.map_cons]

variable [Capture α]

/-- A pattern finds at a place what it makes of the text after it. -/
def AgreesAt (input : String) (pattern : Pattern α) : Prop :=
  ∀ position text, dropBytes? position input.toList = some text →
    Agree input (pattern.run text) (pattern.matchAt? input position)

theorem agree_matchAnyAt? {choices : List (Pattern α)}
    (h : ∀ choice ∈ choices, AgreesAt input choice)
    (htext : dropBytes? position input.toList = some text) :
    Agree input ((any choices).run text) (matchAnyAt? choices input position) := by
  induction choices with
  | nil => exact .none
  | cons choice choices ih =>
      obtain ⟨hchoice, hrest⟩ := List.forall_mem_cons.mp h
      rw [run_any_cons, matchAnyAt?]
      exact (hchoice position text htext).or (ih hrest)

theorem agree_matchSeqAt? {parts : List (Pattern α)} (h : ∀ part ∈ parts, AgreesAt input part)
    (htext : dropBytes? position input.toList = some text) :
    Agree input (runSeq parts text) (matchSeqAt? parts input position) := by
  induction parts generalizing position text with
  | nil => exact .some htext
  | cons part parts ih =>
      obtain ⟨hpart, hrest⟩ := List.forall_mem_cons.mp h
      rw [runSeq_cons_eq, matchSeqAt?]
      exact (hpart position text htext).bind fun v stop rest hstop =>
        (ih hrest hstop).map (v :: ·)

section Repetition

variable {element : Pattern α} {separator : Option (Pattern α)}

theorem agree_nextMatch? (helement : AgreesAt input element)
    (hseparator : ∀ p ∈ separator, AgreesAt input p)
    (htext : dropBytes? position input.toList = some text) :
    Agree input (nextElement element separator text)
      (nextMatch? element separator input position) := by
  cases separator with
  | none => exact helement position text htext
  | some separator =>
      change Agree input (((separator.run text).map (·.2)).bind element.run)
        (((separator.matchAt? input position).map Match.stop).bind (element.matchAt? input))
      rw [Option.bind_map, Option.bind_map]
      exact (hseparator separator rfl position text htext).bind fun _ stop rest hstop =>
        helement stop rest hstop

theorem agree_rep (helement : AgreesAt input element)
    (hseparator : ∀ p ∈ separator, AgreesAt input p)
    (htext : dropBytes? position input.toList = some text) :
    Agree input ((rep element separator).run text)
      ((rep element separator).matchAt? input position) := by
  by_cases hsome : ∃ first, element.matchAt? input position = some first ∧ position < first.stop
  · obtain ⟨first, hfirst, hlt⟩ := hsome
    obtain ⟨others, hchain, hrep⟩ : ∃ others,
        Chain (nextMatch? element separator input) first.stop others ∧ _ :=
      rep_matchAt?_of_first hfirst hlt
    obtain ⟨mid, hrun, hmid⟩ := (helement position text htext).exists_rest hfirst
    obtain ⟨rest, hvalues, hrest⟩ :=
      chain_of_chain (fun p t => agree_nextMatch? helement hseparator) hchain hmid
    have hrun' : (rep element separator).run text =
        some (Capture.list ((first :: others).map Match.value), rest) :=
      run_rep_eq_some_iff.mpr ⟨first.value, mid, hrun, (lt_iff_length_lt htext hmid).mp hlt,
        by rw [hvalues, List.map_cons], by rw [hvalues]⟩
    rw [hrep, hrun']
    exact .some hrest
  · have hrun : (rep element separator).run text = none := by
      refine Option.eq_none_iff_forall_ne_some.mpr fun ⟨v, rest⟩ h => hsome ?_
      obtain ⟨w, mid, hw, hlt, -, -⟩ := run_rep_eq_some_iff.mp h
      obtain ⟨stop, hfirst, hmid⟩ := (helement position text htext).exists_stop hw
      exact ⟨_, hfirst, (lt_iff_length_lt htext hmid).mpr hlt⟩
    have hmatch : (rep element separator).matchAt? input position = none :=
      Option.eq_none_iff_forall_ne_some.mpr fun m h => hsome (exists_first_of_rep h)
    rw [hrun, hmatch]
    exact .none

end Repetition

theorem agreesAt (pattern : Pattern α) (input : String) : AgreesAt input pattern := by
  induction pattern using induction <;> intro position text htext
  case literal expected =>
    rw [run_literal_eq, matchAt?_literal htext]
    split
    · rename_i hstarts
      obtain ⟨rest, rfl⟩ := List.isPrefixOf_iff_prefix.mp hstarts
      rw [List.drop_left, ← byteLength_toList]
      exact .some (dropBytes?_add htext)
    · exact .none
  case regex re =>
    rw [run_regex_eq, matchAt?_regex htext]
    cases hfound : re.find? text with
    | none => exact .none
    | some found =>
        obtain ⟨skipped, matched, rest⟩ := found
        cases skipped with
        | nil =>
            rw [Regex.eq_of_find? hfound] at htext
            exact .some (dropBytes?_add htext)
        | cons c skipped => exact .none
  case optional inner ih =>
    rw [run_optional_eq, matchAt?_optional htext, ← Option.or_some, ← Option.or_some]
    exact (ih position text htext).or (.some htext)
  case any choices ih =>
    rw [matchAt?_any htext]
    exact agree_matchAnyAt? ih htext
  case seq parts ih =>
    rw [run_seq_eq, matchAt?_seq htext]
    exact (agree_matchSeqAt? ih htext).map Capture.list
  case rep element separator ih ihSeparator => exact agree_rep ih ihSeparator htext
  case filterMap inner f ih =>
    rw [run_filterMap_eq, matchAt?_filterMap htext]
    refine (ih position text htext).bind fun v stop rest hstop => ?_
    show Agree input ((f v).map (·, rest)) ((f v).map (⟨·, stop⟩))
    cases f v with
    | none => exact .none
    | some w => exact .some hstop

theorem agree_zero (pattern : Pattern α) (input : String) :
    Agree input (pattern.run input.toList) (pattern.matchAt? input 0) :=
  agreesAt pattern input 0 _ (by rw [dropBytes?])

/-- Where a match ends can be read off what it leaves of the text. -/
theorem matchAt?_eq_map_run (pattern : Pattern α)
    (htext : dropBytes? position input.toList = some text) :
    pattern.matchAt? input position = (pattern.run text).map fun (v, rest) =>
      ⟨v, position + byteLength text - byteLength rest⟩ := by
  have hagree := agreesAt pattern input position text htext
  have hsize := add_byteLength_of_dropBytes? htext
  generalize pattern.run text = result, pattern.matchAt? input position = found at hagree ⊢
  cases hagree with
  | none => rfl
  | some hstop =>
      have hend := add_byteLength_of_dropBytes? hstop
      simp only [Option.map_some, hsize, ← hend, Nat.add_sub_cancel]

end TableQuery.Pattern
