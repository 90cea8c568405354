import Mathlib.Logic.Relation
import TableQuery.Proofs.Pattern.Remainders
import TableQuery.Query.Parse

/-!
The matches that a match is made of. A pattern is matched by trying its parts, the
first of them where it is tried itself and each further one where an earlier part,
or a separator, left off. Where a part is tried is therefore always a place of the
text, however deep patterns are nested and whatever the functions on their values
reject, and it never lies before the place where everything began.
-/

namespace TableQuery.Pattern

open Text

variable {α : Type} [Capture α] {input : String} {position : Nat} {m : Match α}

/-- The parts that a pattern tries, with the offsets at which it tries them, whether
they match there or not. -/
inductive TriesPart (input : String) : Pattern α → Nat → Pattern α → Nat → Prop
  | optional {inner : Pattern α} {position : Nat} :
      TriesPart input (optional inner) position inner position
  | choice {before : List (Pattern α)} {choice : Pattern α} {after : List (Pattern α)}
      {position : Nat} : (∀ earlier ∈ before, earlier.matchAt? input position = none) →
        TriesPart input (any (before ++ choice :: after)) position choice position
  | part {before : List (Pattern α)} {part : Pattern α} {after : List (Pattern α)}
      {position : Nat} {ms : Match (List α)} : matchSeqAt? before input position = some ms →
        TriesPart input (seq (before ++ part :: after)) position part ms.stop
  | firstElement {element : Pattern α} {separator : Option (Pattern α)} {position : Nat} :
      TriesPart input (rep element separator) position element position
  | separator {element separator : Pattern α} {position : Nat} {m : Match α} :
      m ∈ elementsAt element (some separator) input position →
        TriesPart input (rep element (some separator)) position separator m.stop
  | furtherElement {element : Pattern α} {separator : Option (Pattern α)}
      {position place : Nat} {m : Match α} : m ∈ elementsAt element separator input position →
        afterSeparator? separator input m.stop = some place →
        TriesPart input (rep element separator) position element place
  | filterMap {inner : Pattern α} {f : α → Option α} {position : Nat} :
      TriesPart input (filterMap inner f) position inner position

/-- One match starts another, for a part of its pattern. A match that is tried at no
place of the text fails before it starts any. -/
def Starts (input : String) (outer inner : Pattern α × Nat) : Prop :=
  String.Pos.Raw.IsValid input ⟨outer.2⟩ ∧ TriesPart input outer.1 outer.2 inner.1 inner.2

theorem placeFrom_of_afterSeparator? {separator : Option (Pattern α)} {place : Nat}
    (hposition : String.Pos.Raw.IsValid input ⟨position⟩)
    (h : afterSeparator? separator input position = some place) :
    PlaceFrom input position place := by
  cases separator with
  | none =>
      obtain rfl := Option.some.inj h
      exact .refl hposition
  | some separator =>
      obtain ⟨m, hm, rfl⟩ := Option.map_eq_some_iff.mp h
      exact (matchesAtPlaces_matchAt? separator input _ _ hm).2

theorem placeFrom_of_element {element : Pattern α} {separator : Option (Pattern α)}
    (h : m ∈ elementsAt element separator input position) :
    PlaceFrom input position m.stop ∧ position < m.stop :=
  placeFrom_of_mem_elementsAt (matchesAtPlaces_matchAt? element input)
    (fun p _ => matchesAtPlaces_matchAt? p input) h

theorem placeFrom_of_starts {outer inner : Pattern α × Nat} (h : Starts input outer inner) :
    PlaceFrom input outer.2 inner.2 := by
  obtain ⟨outer, position⟩ := outer
  obtain ⟨inner, offset⟩ := inner
  obtain ⟨hposition, htries⟩ := h
  cases htries with
  | optional => exact .refl hposition
  | choice _ => exact .refl hposition
  | part hbefore =>
      exact placeFrom_of_matchSeqAt? (fun part _ => matchesAtPlaces_matchAt? part input) hposition
        hbefore
  | firstElement => exact .refl hposition
  | separator hm => exact (placeFrom_of_element hm).1
  | furtherElement hm hplace =>
      obtain ⟨hreached, -⟩ := placeFrom_of_element hm
      exact hreached.trans (placeFrom_of_afterSeparator? hreached.1 hplace)
  | filterMap => exact .refl hposition

theorem placeFrom_of_transGen {outer inner : Pattern α × Nat}
    (h : Relation.TransGen (Starts input) outer inner) : PlaceFrom input outer.2 inner.2 := by
  induction h with
  | single h => exact placeFrom_of_starts h
  | tail _ h ih => exact ih.trans (placeFrom_of_starts h)

theorem lt_stop_of_rep {element : Pattern α} {separator : Option (Pattern α)}
    (h : (rep element separator).matchAt? input position = some m) : position < m.stop := by
  obtain ⟨rest, hrest⟩ := exists_rest_of_matchAt? h
  rw [matchAt?_rep hrest] at h
  obtain ⟨last, hlast, rfl⟩ := Option.map_eq_some_iff.mp h
  exact (placeFrom_of_element (List.mem_of_getLast? hlast)).2

theorem exists_cut_of_query {m : Match Dialect.Phrase}
    (h : Dialect.query.matchAt? input 0 = some m) :
    ∃ accepted remainder, input = accepted ++ remainder ∧ accepted.utf8ByteSize = m.stop ∧
      (m.stop < input.utf8ByteSize →
        Query.parse input = .error (.trailingInput m.stop remainder)) := by
  obtain ⟨rest, hrun, hrest⟩ := (agree_zero Dialect.query input).exists_rest h
  obtain ⟨accepted, hinput, hstop⟩ := dropBytes?_eq_some_iff.mp hrest
  refine ⟨String.ofList accepted, String.ofList rest, ?_, ?_, ?_⟩
  · rw [← String.ofList_append, ← hinput, String.ofList_toList]
  · rw [← byteLength_toList, String.toList_ofList, hstop]
  · intro hlt
    have hsize := add_byteLength_of_dropBytes? hrest
    have hne : rest.isEmpty = false := by
      cases rest with
      | nil =>
          rw [byteLength, byteLength_toList] at hsize
          omega
      | cons c rest => rfl
    rw [Query.parse, hrun]
    simp only [hne, ← hsize, Nat.add_sub_cancel]
    rfl

/-- A match leads from a place of the text to a place that is not before it, and a
repetition always gets further. Every match that is started in its course, through
patterns nested to any depth, is tried at a place as well, and never at one before
it. So what follows a query can be cut off where the query ends, and it is what
reading the text reports. -/
theorem matches_at_places (pattern : Pattern α) (input : String) (position : Nat) :
    (∀ m, pattern.matchAt? input position = some m →
      String.Pos.Raw.IsValid input ⟨position⟩ ∧ position ≤ m.stop ∧
        m.stop ≤ input.utf8ByteSize ∧ String.Pos.Raw.IsValid input ⟨m.stop⟩ ∧
        ∀ element separator, pattern = .rep element separator → position < m.stop) ∧
    (∀ inner offset, Relation.TransGen (Starts input) (pattern, position) (inner, offset) →
      String.Pos.Raw.IsValid input ⟨offset⟩ ∧ position ≤ offset) ∧
    ∀ m, Dialect.query.matchAt? input 0 = some m →
      ∃ accepted remainder, input = accepted ++ remainder ∧ accepted.utf8ByteSize = m.stop ∧
        (m.stop < input.utf8ByteSize →
          Query.parse input = .error (.trailingInput m.stop remainder)) := by
  refine ⟨?_, fun _ _ h => placeFrom_of_transGen h, fun _ h => exists_cut_of_query h⟩
  intro m h
  obtain ⟨hposition, hplace⟩ := matchesAtPlaces_matchAt? pattern input position m h
  refine ⟨hposition, hplace.2, hplace.le_size, hplace.1, ?_⟩
  rintro element separator rfl
  exact lt_stop_of_rep h

/-- The last element is tried after a separator, between two characters, and fails
there, so that the separator is not taken. -/
theorem matches_at_places_two_bytes :
    let element : Pattern Captured := .literal "\u00e9"
    let separator : Pattern Captured := .literal ","
    let input := "a\u00e9,\u00e9,b"
    (∃ m, (rep element (some separator)).matchAt? input 1 = some m ∧ m.stop = 6 ∧ 1 < m.stop ∧
        String.Pos.Raw.IsValid input ⟨m.stop⟩) ∧
      (Relation.TransGen (Starts input) (rep element (some separator), 1) (element, 7) ∧
        String.Pos.Raw.IsValid input ⟨7⟩ ∧ 1 ≤ 7) ∧
      ∃ m, Dialect.query.matchAt? "SELECT * FROM t \u00e9" 0 = some m ∧ m.stop = 16 ∧
        ∃ accepted remainder, "SELECT * FROM t \u00e9" = accepted ++ remainder ∧
          accepted.utf8ByteSize = m.stop := by
  intro element separator input
  obtain ⟨hmatch, hnested, -⟩ := matches_at_places (rep element (some separator)) input 1
  have hstop : ((rep element (some separator)).matchAt? input 1).map Match.stop = some 6 := by
    decide +kernel
  obtain ⟨m, hm, hend⟩ := Option.map_eq_some_iff.mp hstop
  obtain ⟨-, -, -, hvalid, hrep⟩ := hmatch m hm
  have helements : 6 ∈ (elementsAt element (some separator) input 1).map Match.stop := by
    decide +kernel
  obtain ⟨taken, htaken, hreached⟩ := List.mem_map.mp helements
  have hplace : afterSeparator? (some separator) input taken.stop = some 7 := by
    rw [hreached]
    decide +kernel
  have hstarts : Relation.TransGen (Starts input) (rep element (some separator), 1) (element, 7) :=
    .single ⟨by decide, .furtherElement htaken hplace⟩
  have hquery : (Dialect.query.matchAt? "SELECT * FROM t \u00e9" 0).map Match.stop = some 16 := by
    decide +kernel
  obtain ⟨q, hq, hqend⟩ := Option.map_eq_some_iff.mp hquery
  obtain ⟨accepted, remainder, hcut, hsize, -⟩ :=
    (matches_at_places Dialect.query "SELECT * FROM t \u00e9" 0).2.2 q hq
  exact ⟨⟨m, hm, hend, hrep _ _ rfl, hvalid⟩, ⟨hstarts, hnested _ _ hstarts⟩,
    q, hq, hqend, accepted, remainder, hcut, hsize⟩

end TableQuery.Pattern
