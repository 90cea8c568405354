import TableQuery.Pattern
import TableQuery.Proofs.Regex.Extent
import TableQuery.Proofs.Text.Places

/-!
Matching at places of a whole text. Each pattern form hands offsets on from one of
its parts to the next, a repetition around its loop. Whatever the parts are, a match
at a place ends at a place that is not before it, and putting another text in front
moves all the offsets together and changes nothing else.
-/

namespace TableQuery.Pattern

open Text

variable {α : Type}

/-- Induction over patterns, with the parts of a pattern taken together. -/
@[elab_as_elim]
theorem induction {motive : Pattern α → Prop}
    (literal : ∀ text, motive (literal text))
    (regex : ∀ re, motive (regex re))
    (optional : ∀ inner, motive inner → motive (optional inner))
    (any : ∀ choices, (∀ choice ∈ choices, motive choice) → motive (any choices))
    (seq : ∀ parts, (∀ part ∈ parts, motive part) → motive (seq parts))
    (rep : ∀ element separator, motive element → (∀ pattern ∈ separator, motive pattern) →
      motive (rep element separator))
    (filterMap : ∀ inner f, motive inner → motive (filterMap inner f))
    (pattern : Pattern α) : motive pattern :=
  Pattern.rec (motive_1 := motive) (motive_2 := fun patterns => ∀ p ∈ patterns, motive p)
    (motive_3 := fun pattern => ∀ p ∈ pattern, motive p)
    literal regex optional any seq rep filterMap
    (fun _ h => absurd h List.not_mem_nil)
    (fun _ _ hfirst hrest => List.forall_mem_cons.mpr ⟨hfirst, hrest⟩)
    (fun _ h => absurd h (Option.not_mem_none _))
    (fun _ hpattern _ h => Option.some.inj h ▸ hpattern) pattern

/-! ### Chains of matches -/

/-- Matches one after the other, each of them ending further on than the one before,
up to the first that does not come about or does not get further. -/
inductive Chain (next? : Nat → Option (Match α)) : Nat → List (Match α) → Prop
  | stop {position : Nat} : (∀ m ∈ next? position, m.stop ≤ position) → Chain next? position []
  | step {position : Nat} {m : Match α} {ms : List (Match α)} :
      next? position = some m → position < m.stop → Chain next? m.stop ms →
        Chain next? position (m :: ms)

section Chain

variable {next? : Nat → Option (Match α)} {limit position : Nat} {ms others : List (Match α)}

theorem Chain.eq (h : Chain next? position ms) (h' : Chain next? position others) :
    ms = others := by
  induction h generalizing others with
  | stop hstop =>
      cases h' with
      | stop _ => rfl
      | step hnext hlt _ => exact absurd (hstop _ hnext) (Nat.not_le.mpr hlt)
  | step hnext hlt _ ih =>
      cases h' with
      | stop hstop => exact absurd (hstop _ hnext) (Nat.not_le.mpr hlt)
      | step hnext' _ hrest =>
          obtain rfl := Option.some.inj (hnext.symm.trans hnext')
          rw [ih hrest]

theorem Chain.add_length_le {first : Match α} (h : Chain next? first.stop ms) :
    first.stop + ms.length ≤ (ms.getLastD first).stop := by
  generalize hposition : first.stop = position at h
  induction h generalizing first with
  | stop _ => simp [hposition]
  | step _ hlt _ ih =>
      have hrest := ih rfl
      rw [List.length_cons, List.getLastD_cons]
      omega

theorem Chain.exists_next_of_mem {m : Match α} (h : Chain next? position ms) (hm : m ∈ ms) :
    ∃ p, next? p = some m := by
  induction h with
  | stop _ => simp at hm
  | @step position first _ hnext _ _ ih =>
      rcases List.mem_cons.mp hm with rfl | hm
      · exact ⟨position, hnext⟩
      · exact ih hm

theorem advance_none : advance next? limit position none = [] := by
  rw [advance]

theorem advance_some (m : Match α) :
    advance next? limit position (some m) =
      if position < m.stop ∧ m.stop ≤ limit then
        m :: advance next? limit m.stop (next? m.stop)
      else [] := by
  rw [advance]

/-- If no match ends beyond the limit, a loop is only left where the chain stops. -/
theorem chain_advance (hlimit : ∀ p m, next? p = some m → m.stop ≤ limit) (position : Nat) :
    Chain next? position (advance next? limit position (next? position)) := by
  generalize hmatch : next? position = match?
  induction position, match? using advance.induct next? limit with
  | case1 position m hlt ih =>
      rw [advance_some, if_pos hlt]
      exact .step hmatch hlt.1 (ih rfl)
  | case2 position m hlt =>
      rw [advance_some, if_neg hlt]
      refine .stop fun m' hm' => Nat.not_lt.mp fun hlt' => hlt ?_
      obtain rfl := Option.some.inj (hmatch.symm.trans hm')
      exact ⟨hlt', hlimit position m hmatch⟩
  | case3 position =>
      rw [advance_none]
      exact .stop (by simp [hmatch])

end Chain

section Equations

variable [Capture α] {input : String} {position : Nat} {rest : List Char}

theorem matchAt?_eq_none_of_dropBytes? (h : dropBytes? position input.toList = none)
    (pattern : Pattern α) : pattern.matchAt? input position = none := by
  rw [matchAt?, h, Option.bind_none]

theorem matchAt?_literal (h : dropBytes? position input.toList = some rest) (expected : String) :
    (literal expected : Pattern α).matchAt? input position =
      if expected.toList.isPrefixOf rest then
        some ⟨Capture.text expected, position + expected.utf8ByteSize⟩
      else none := by
  rw [matchAt?, h, Option.bind_some]

theorem matchAt?_regex (h : dropBytes? position input.toList = some rest) (re : Regex) :
    (regex re : Pattern α).matchAt? input position =
      match re.find? rest with
      | some ⟨[], matched, _⟩ =>
        some ⟨Capture.text (String.ofList matched), position + byteLength matched⟩
      | _ => none := by
  rw [matchAt?, h]
  rfl

theorem matchAt?_optional (h : dropBytes? position input.toList = some rest) (inner : Pattern α) :
    (optional inner).matchAt? input position =
      some ((inner.matchAt? input position).getD ⟨Capture.nothing, position⟩) := by
  rw [matchAt?, h, Option.bind_some]

theorem matchAt?_any (h : dropBytes? position input.toList = some rest)
    (choices : List (Pattern α)) :
    (any choices).matchAt? input position = matchAnyAt? choices input position := by
  rw [matchAt?, h, Option.bind_some]

theorem matchAt?_seq (h : dropBytes? position input.toList = some rest) (parts : List (Pattern α)) :
    (seq parts).matchAt? input position =
      (matchSeqAt? parts input position).map fun m => ⟨Capture.list m.value, m.stop⟩ := by
  rw [matchAt?, h, Option.bind_some]

def nextMatch? (element : Pattern α) (separator : Option (Pattern α)) (input : String)
    (position : Nat) : Option (Match α) :=
  (afterSeparator? separator input position).bind (element.matchAt? input)

def elementsAt (element : Pattern α) (separator : Option (Pattern α)) (input : String)
    (position : Nat) : List (Match α) :=
  advance (nextMatch? element separator input) input.utf8ByteSize position
    (element.matchAt? input position)

theorem matchAt?_rep (h : dropBytes? position input.toList = some rest) (element : Pattern α)
    (separator : Option (Pattern α)) :
    (rep element separator).matchAt? input position =
      (elementsAt element separator input position).getLast?.map fun last =>
        ⟨Capture.list ((elementsAt element separator input position).map Match.value),
          last.stop⟩ := by
  rw [matchAt?, h, Option.bind_some]
  rfl

theorem matchAt?_filterMap (h : dropBytes? position input.toList = some rest) (inner : Pattern α)
    (f : α → Option α) :
    (filterMap inner f).matchAt? input position =
      (inner.matchAt? input position).bind fun m => (f m.value).map (⟨·, m.stop⟩) := by
  rw [matchAt?, h, Option.bind_some]

end Equations

/-! ### Where matches end -/

/-- An offset that is a place and not before another one. -/
def PlaceFrom (input : String) (position offset : Nat) : Prop :=
  String.Pos.Raw.IsValid input ⟨offset⟩ ∧ position ≤ offset

/-- Matches lead from places to places that are not before these. -/
def MatchesAtPlaces (input : String) (match? : Nat → Option (Match α)) : Prop :=
  ∀ position m, match? position = some m →
    String.Pos.Raw.IsValid input ⟨position⟩ ∧ PlaceFrom input position m.stop

section Places

variable {input : String} {position stop offset : Nat} {rest : List Char} {m : Match α}

theorem PlaceFrom.refl (h : String.Pos.Raw.IsValid input ⟨position⟩) :
    PlaceFrom input position position :=
  ⟨h, Nat.le_refl _⟩

theorem PlaceFrom.trans (h : PlaceFrom input position stop) (h' : PlaceFrom input stop offset) :
    PlaceFrom input position offset :=
  ⟨h'.1, Nat.le_trans h.2 h'.2⟩

theorem PlaceFrom.le_size (h : PlaceFrom input position offset) : offset ≤ input.utf8ByteSize := by
  obtain ⟨rest, hrest⟩ := isValid_iff.mp h.1
  have hsize := add_byteLength_of_dropBytes? hrest
  rw [byteLength_toList] at hsize
  omega

theorem placeFrom_of_dropBytes? {taken : List Char}
    (h : dropBytes? position input.toList = some (taken ++ rest)) :
    PlaceFrom input position (position + byteLength taken) :=
  ⟨isValid_iff.mpr ⟨rest, dropBytes?_add h⟩, Nat.le_add_right _ _⟩

theorem Chain.placeFrom_of_mem {next? : Nat → Option (Match α)} {ms : List (Match α)}
    (hnext : MatchesAtPlaces input next?) (h : Chain next? position ms) (hm : m ∈ ms) :
    PlaceFrom input position m.stop := by
  induction h with
  | stop _ => simp at hm
  | step hstep _ _ ih =>
      obtain ⟨-, hplace⟩ := hnext _ _ hstep
      rcases List.mem_cons.mp hm with rfl | hm
      · exact hplace
      · exact hplace.trans (ih hm)

variable [Capture α]

theorem exists_of_matchAnyAt? {choices : List (Pattern α)}
    (h : matchAnyAt? choices input position = some m) :
    ∃ choice ∈ choices, choice.matchAt? input position = some m := by
  induction choices with
  | nil => simp [matchAnyAt?] at h
  | cons choice choices ih =>
      rw [matchAnyAt?, Option.or_eq_some_iff] at h
      rcases h with h | ⟨-, h⟩
      · exact ⟨choice, List.mem_cons_self, h⟩
      · obtain ⟨later, hlater, h⟩ := ih h
        exact ⟨later, List.mem_cons_of_mem _ hlater, h⟩

theorem matchSeqAt?_cons_eq_some_iff {part : Pattern α} {parts : List (Pattern α)}
    {ms : Match (List α)} :
    matchSeqAt? (part :: parts) input position = some ms ↔
      ∃ m others, part.matchAt? input position = some m ∧
        matchSeqAt? parts input m.stop = some others ∧
        ⟨m.value :: others.value, others.stop⟩ = ms := by
  simp only [matchSeqAt?, Option.bind_eq_some_iff, Option.map_eq_some_iff, exists_and_left]

theorem placeFrom_of_matchSeqAt? {parts : List (Pattern α)} {ms : Match (List α)}
    (hparts : ∀ part ∈ parts, MatchesAtPlaces input (part.matchAt? input))
    (hposition : String.Pos.Raw.IsValid input ⟨position⟩)
    (h : matchSeqAt? parts input position = some ms) : PlaceFrom input position ms.stop := by
  induction parts generalizing position ms with
  | nil =>
      obtain rfl := Option.some.inj h
      exact .refl hposition
  | cons part parts ih =>
      obtain ⟨hpart, hrest⟩ := List.forall_mem_cons.mp hparts
      obtain ⟨m, others, hm, hothers, rfl⟩ := matchSeqAt?_cons_eq_some_iff.mp h
      obtain ⟨-, hplace⟩ := hpart _ _ hm
      have hstop := ih hrest hplace.1 hothers
      exact hplace.trans hstop

section Repetition

variable {element : Pattern α} {separator : Option (Pattern α)}

theorem matchesAtPlaces_nextMatch? (helement : MatchesAtPlaces input (element.matchAt? input))
    (hseparator : ∀ p ∈ separator, MatchesAtPlaces input (p.matchAt? input)) :
    MatchesAtPlaces input (nextMatch? element separator input) := by
  intro position m h
  obtain ⟨place, hplace, hm⟩ := Option.bind_eq_some_iff.mp h
  obtain ⟨hvalid, hstop⟩ := helement _ _ hm
  cases separator with
  | none =>
      obtain rfl := Option.some.inj hplace
      exact ⟨hvalid, hstop⟩
  | some separator =>
      obtain ⟨before, hbefore, rfl⟩ := Option.map_eq_some_iff.mp hplace
      obtain ⟨hposition, hplace⟩ := hseparator separator rfl _ _ hbefore
      exact ⟨hposition, hplace.trans hstop⟩

theorem exists_first_of_mem_elementsAt (h : m ∈ elementsAt element separator input position) :
    ∃ first, element.matchAt? input position = some first ∧ position < first.stop := by
  rw [elementsAt] at h
  cases hfirst : element.matchAt? input position with
  | none => simp [hfirst, advance_none] at h
  | some first =>
      by_cases hlt : position < first.stop
      · exact ⟨first, rfl, hlt⟩
      · rw [hfirst, advance_some, if_neg fun hguard => hlt hguard.1] at h
        simp at h

/-- The elements of a repetition are the first one, if it takes something, and then
a chain of further ones. -/
theorem exists_elementsAt_eq {first : Match α}
    (helement : MatchesAtPlaces input (element.matchAt? input))
    (hseparator : ∀ p ∈ separator, MatchesAtPlaces input (p.matchAt? input))
    (hfirst : element.matchAt? input position = some first) (hlt : position < first.stop) :
    ∃ others, Chain (nextMatch? element separator input) first.stop others ∧
      elementsAt element separator input position = first :: others := by
  have hlimit : ∀ p m, nextMatch? element separator input p = some m →
      m.stop ≤ input.utf8ByteSize :=
    fun p m hm => (matchesAtPlaces_nextMatch? helement hseparator p m hm).2.le_size
  refine ⟨_, chain_advance hlimit first.stop, ?_⟩
  rw [elementsAt, hfirst, advance_some, if_pos ⟨hlt, (helement _ _ hfirst).2.le_size⟩]

theorem placeFrom_of_mem_elementsAt (helement : MatchesAtPlaces input (element.matchAt? input))
    (hseparator : ∀ p ∈ separator, MatchesAtPlaces input (p.matchAt? input))
    (h : m ∈ elementsAt element separator input position) :
    PlaceFrom input position m.stop ∧ position < m.stop := by
  obtain ⟨first, hfirst, hlt⟩ := exists_first_of_mem_elementsAt h
  obtain ⟨others, hchain, helements⟩ := exists_elementsAt_eq helement hseparator hfirst hlt
  obtain ⟨-, hplace⟩ := helement _ _ hfirst
  rw [helements] at h
  rcases List.mem_cons.mp h with rfl | hm
  · exact ⟨hplace, hlt⟩
  · have hfurther := hchain.placeFrom_of_mem (matchesAtPlaces_nextMatch? helement hseparator) hm
    exact ⟨hplace.trans hfurther, Nat.lt_of_lt_of_le hlt hfurther.2⟩

end Repetition

theorem exists_rest_of_matchAt? {pattern : Pattern α}
    (h : pattern.matchAt? input position = some m) :
    ∃ rest, dropBytes? position input.toList = some rest := by
  cases hrest : dropBytes? position input.toList with
  | none => simp [matchAt?_eq_none_of_dropBytes? hrest] at h
  | some rest => exact ⟨rest, rfl⟩

theorem matchesAtPlaces_of_placeFrom {pattern : Pattern α}
    (h : ∀ position rest m, dropBytes? position input.toList = some rest →
      pattern.matchAt? input position = some m → PlaceFrom input position m.stop) :
    MatchesAtPlaces input (pattern.matchAt? input) := by
  intro position m hm
  obtain ⟨rest, hrest⟩ := exists_rest_of_matchAt? hm
  exact ⟨isValid_iff.mpr ⟨rest, hrest⟩, h position rest m hrest hm⟩

/-- Whatever its parts are, a pattern matches from place to place. -/
theorem matchesAtPlaces_matchAt? (pattern : Pattern α) (input : String) :
    MatchesAtPlaces input (pattern.matchAt? input) := by
  induction pattern using induction <;>
    refine matchesAtPlaces_of_placeFrom fun position rest m hrest h => ?_
  case literal expected =>
    rw [matchAt?_literal hrest] at h
    obtain ⟨hstarts, hm⟩ := Option.ite_none_right_eq_some.mp h
    obtain ⟨after, rfl⟩ := List.isPrefixOf_iff_prefix.mp hstarts
    obtain rfl := Option.some.inj hm
    rw [← byteLength_toList]
    exact placeFrom_of_dropBytes? hrest
  case regex re =>
    rw [matchAt?_regex hrest] at h
    split at h
    · rename_i matched after hfound
      obtain rfl := Option.some.inj h
      rw [Regex.eq_of_find? hfound] at hrest
      exact placeFrom_of_dropBytes? hrest
    · simp at h
  case optional inner ih =>
    rw [matchAt?_optional hrest] at h
    obtain rfl := Option.some.inj h
    cases hinner : inner.matchAt? input position with
    | none => exact .refl (isValid_iff.mpr ⟨rest, hrest⟩)
    | some found => exact (ih _ _ hinner).2
  case any choices ih =>
    rw [matchAt?_any hrest] at h
    obtain ⟨choice, hchoice, hm⟩ := exists_of_matchAnyAt? h
    exact (ih choice hchoice _ _ hm).2
  case seq parts ih =>
    rw [matchAt?_seq hrest] at h
    obtain ⟨ms, hparts, rfl⟩ := Option.map_eq_some_iff.mp h
    exact placeFrom_of_matchSeqAt? ih (isValid_iff.mpr ⟨rest, hrest⟩) hparts
  case rep element separator ih ihSeparator =>
    rw [matchAt?_rep hrest] at h
    obtain ⟨last, hlast, rfl⟩ := Option.map_eq_some_iff.mp h
    exact (placeFrom_of_mem_elementsAt ih ihSeparator (List.mem_of_getLast? hlast)).1
  case filterMap inner f ih =>
    rw [matchAt?_filterMap hrest] at h
    obtain ⟨found, hfound, hm⟩ := Option.bind_eq_some_iff.mp h
    obtain ⟨w, -, rfl⟩ := Option.map_eq_some_iff.mp hm
    exact (ih _ _ hfound).2

end Places

/-! ### Texts in front -/

/-- The same match with so many more bytes before it. -/
def Match.shift (n : Nat) (m : Match α) : Match α :=
  ⟨m.value, n + m.stop⟩

section Shift

variable {before input : String} {position n : Nat}

theorem advance_shift {next? next'? : Nat → Option (Match α)}
    (hnext : ∀ p, next'? (n + p) = (next? p).map (Match.shift n)) (limit position : Nat)
    (match? : Option (Match α)) :
    advance next'? (n + limit) (n + position) (match?.map (Match.shift n)) =
      (advance next? limit position match?).map (Match.shift n) := by
  have hguard (p : Nat) (m : Match α) : n + p < (m.shift n).stop ∧ (m.shift n).stop ≤ n + limit ↔
      p < m.stop ∧ m.stop ≤ limit := by
    show n + p < n + m.stop ∧ n + m.stop ≤ n + limit ↔ _
    omega
  induction position, match? using advance.induct next? limit with
  | case1 position m hlt ih =>
      rw [Option.map_some, advance_some, if_pos ((hguard position m).mpr hlt), advance_some,
        if_pos hlt, List.map_cons, ← ih]
      exact congrArg _ (congrArg _ (hnext m.stop))
  | case2 position m hlt =>
      rw [Option.map_some, advance_some, if_neg (mt (hguard position m).mp hlt), advance_some,
        if_neg hlt, List.map_nil]
  | case3 position => rw [Option.map_none, advance_none, advance_none, List.map_nil]

variable [Capture α]

/-- The pattern does not see what is in front of it. -/
def Shifts (before input : String) (pattern : Pattern α) : Prop :=
  ∀ position, pattern.matchAt? (before ++ input) (before.utf8ByteSize + position) =
    (pattern.matchAt? input position).map (Match.shift before.utf8ByteSize)

theorem shifts_of_rest {pattern : Pattern α}
    (h : ∀ position rest, dropBytes? position input.toList = some rest →
      dropBytes? (before.utf8ByteSize + position) (before ++ input).toList = some rest →
        pattern.matchAt? (before ++ input) (before.utf8ByteSize + position) =
          (pattern.matchAt? input position).map (Match.shift before.utf8ByteSize)) :
    Shifts before input pattern := by
  intro position
  have hdrop : dropBytes? (before.utf8ByteSize + position) (before ++ input).toList =
      dropBytes? position input.toList := by
    rw [String.toList_append, ← byteLength_toList, dropBytes?_append]
  cases hrest : dropBytes? position input.toList with
  | none =>
      rw [matchAt?_eq_none_of_dropBytes? hrest,
        matchAt?_eq_none_of_dropBytes? (hdrop.trans hrest), Option.map_none]
  | some rest => exact h position rest hrest (hdrop.trans hrest)

theorem matchAnyAt?_shift {choices : List (Pattern α)}
    (h : ∀ choice ∈ choices, Shifts before input choice) (position : Nat) :
    matchAnyAt? choices (before ++ input) (before.utf8ByteSize + position) =
      (matchAnyAt? choices input position).map (Match.shift before.utf8ByteSize) := by
  induction choices with
  | nil => rw [matchAnyAt?, matchAnyAt?, Option.map_none]
  | cons choice choices ih =>
      obtain ⟨hchoice, hrest⟩ := List.forall_mem_cons.mp h
      rw [matchAnyAt?, matchAnyAt?, hchoice, ih hrest, Option.map_or]

theorem matchSeqAt?_shift {parts : List (Pattern α)}
    (h : ∀ part ∈ parts, Shifts before input part) (position : Nat) :
    matchSeqAt? parts (before ++ input) (before.utf8ByteSize + position) =
      (matchSeqAt? parts input position).map (Match.shift before.utf8ByteSize) := by
  induction parts generalizing position with
  | nil => rw [matchSeqAt?, matchSeqAt?, Option.map_some, Match.shift]
  | cons part parts ih =>
      obtain ⟨hpart, hrest⟩ := List.forall_mem_cons.mp h
      rw [matchSeqAt?, matchSeqAt?, hpart]
      cases part.matchAt? input position with
      | none => rfl
      | some m =>
          rw [Option.map_some, Option.bind_some, Option.bind_some]
          show Option.map _ (matchSeqAt? parts _ (before.utf8ByteSize + m.stop)) = _
          rw [ih hrest, Option.map_map, Option.map_map]
          rfl

theorem nextMatch?_shift {element : Pattern α} {separator : Option (Pattern α)}
    (helement : Shifts before input element) (hseparator : ∀ p ∈ separator, Shifts before input p)
    (position : Nat) :
    nextMatch? element separator (before ++ input) (before.utf8ByteSize + position) =
      (nextMatch? element separator input position).map (Match.shift before.utf8ByteSize) := by
  cases separator with
  | none => exact helement position
  | some separator =>
      rw [nextMatch?, nextMatch?, afterSeparator?, afterSeparator?, hseparator separator rfl]
      cases separator.matchAt? input position with
      | none => rfl
      | some m => exact helement m.stop

theorem elementsAt_shift {element : Pattern α} {separator : Option (Pattern α)}
    (helement : Shifts before input element) (hseparator : ∀ p ∈ separator, Shifts before input p)
    (position : Nat) :
    elementsAt element separator (before ++ input) (before.utf8ByteSize + position) =
      (elementsAt element separator input position).map (Match.shift before.utf8ByteSize) := by
  rw [elementsAt, elementsAt, String.utf8ByteSize_append, helement,
    advance_shift (nextMatch?_shift helement hseparator)]

/-- In front of a text, another one moves all its matches by its size and changes
nothing else; where there is no match, for whatever reason, none comes up. -/
theorem matchAt?_append (pattern : Pattern α) (before input : String) (position : Nat) :
    pattern.matchAt? (before ++ input) (before.utf8ByteSize + position) =
      (pattern.matchAt? input position).map (Match.shift before.utf8ByteSize) := by
  suffices h : Shifts before input pattern from h position
  induction pattern using induction <;> refine shifts_of_rest fun position rest hrest hrest' => ?_
  case literal expected =>
    rw [matchAt?_literal hrest, matchAt?_literal hrest']
    split
    · rw [Option.map_some, Match.shift, Nat.add_assoc]
    · rfl
  case regex re =>
    rw [matchAt?_regex hrest, matchAt?_regex hrest']
    split
    · rw [Option.map_some, Match.shift, Nat.add_assoc]
    · rfl
  case optional inner ih =>
    rw [matchAt?_optional hrest, matchAt?_optional hrest', ih]
    cases inner.matchAt? input position <;> rfl
  case any choices ih =>
    rw [matchAt?_any hrest, matchAt?_any hrest']
    exact matchAnyAt?_shift ih position
  case seq parts ih =>
    rw [matchAt?_seq hrest, matchAt?_seq hrest', matchSeqAt?_shift ih, Option.map_map,
      Option.map_map]
    rfl
  case rep element separator ih ihSeparator =>
    rw [matchAt?_rep hrest, matchAt?_rep hrest', elementsAt_shift ih ihSeparator,
      List.getLast?_map, Option.map_map, Option.map_map, List.map_map]
    rfl
  case filterMap inner f ih =>
    rw [matchAt?_filterMap hrest, matchAt?_filterMap hrest', ih]
    cases inner.matchAt? input position with
    | none => rfl
    | some m =>
        show Option.map _ (f m.value) = Option.map _ (Option.map _ (f m.value))
        rw [Option.map_map]
        rfl

end Shift

end TableQuery.Pattern
