import TableQuery.Proofs.Json.Decimals
import TableQuery.Proofs.Json.Reading

/-!
Printing a document and reading it again. Everything comes back as it was, in either
layout and at any depth that is read, except for the numbers: each of them is replaced by
what is read off its own text. The layout has no say in that, so both layouts of a
document hold the same document. A reader that rounds each decimal once, to the nearest
number, takes every number off its text as it is.
-/

namespace TableQuery

mutual

/-- The document with another document for each of its numbers. -/
def Document.mapNumbers (f : Binary64 → Document) : Document → Document
  | .array items => .array (Json.mapItems f items)
  | .object members => .object (Json.mapMembers f members)
  | .null => .null
  | .boolean b => .boolean b
  | .number x => f x
  | .string s => .string s

def Json.mapItems (f : Binary64 → Document) : List Document → List Document
  | [] => []
  | item :: items => item.mapNumbers f :: Json.mapItems f items

def Json.mapMembers (f : Binary64 → Document) :
    List (String × Document) → List (String × Document)
  | [] => []
  | (name, value) :: members => (name, value.mapNumbers f) :: Json.mapMembers f members

end

section MapNumbers

variable (f : Binary64 → Document)

theorem Json.mapItems_eq_map (items : List Document) :
    mapItems f items = items.map (Document.mapNumbers f) := by
  induction items with
  | nil => rfl
  | cons item items ih => rw [mapItems, ih, List.map_cons]

theorem Json.mapMembers_eq_map (members : List (String × Document)) :
    mapMembers f members = members.map fun (name, value) => (name, value.mapNumbers f) := by
  induction members with
  | nil => rfl
  | cons member members ih => rw [mapMembers, ih, List.map_cons]

namespace Document

theorem mapNumbers_array (items : List Document) :
    (array items).mapNumbers f = array (items.map (mapNumbers f)) := by
  rw [mapNumbers, Json.mapItems_eq_map]

theorem mapNumbers_object (members : List (String × Document)) :
    (object members).mapNumbers f =
      object (members.map fun (name, value) => (name, value.mapNumbers f)) := by
  rw [mapNumbers, Json.mapMembers_eq_map]

end Document

end MapNumbers

/-- The containers of the document nest no deeper than a bound. -/
def Document.NestsWithin : Nat → Document → Prop
  | 0, .array _ | 0, .object _ => False
  | levels + 1, .array items => ∀ item ∈ items, item.NestsWithin levels
  | levels + 1, .object members => ∀ member ∈ members, member.2.NestsWithin levels
  | _, .null | _, .boolean _ | _, .number _ | _, .string _ => True

namespace Document

variable {f : Binary64 → Document}

/-- Names are settled without a look at the values, so replacing numbers leaves nothing to
settle. -/
theorem settled_mapNumbers (hf : ∀ x, (f x).settled = f x) (levels : Nat) :
    ∀ document : Document, document.NestsWithin levels → document.settled = document →
      (document.mapNumbers f).settled = document.mapNumbers f := by
  induction levels with
  | zero =>
      intro document hnests _
      cases document with
      | array _ | object _ => exact hnests.elim
      | number x => exact hf x
      | null | boolean _ | string _ => rfl
  | succ levels ih =>
      intro document hnests hsettled
      cases document with
      | array items =>
          have hitems := settled_of_mem_items hsettled
          rw [mapNumbers_array, settled_array, List.map_map]
          refine congrArg array (List.map_congr_left fun item hitem => ?_)
          exact ih item (hnests item hitem) (hitems item hitem)
      | object members =>
          have hmembers := settled_of_mem_members hsettled
          have hnodup := nodup_of_settled hsettled
          rw [mapNumbers_object, settled_object, Keyed.ofPairs_of_nodup, List.map_map]
          · refine congrArg object (List.map_congr_left fun member hmember => ?_)
            exact congrArg (Prod.mk member.1)
              (ih member.2 (hnests member hmember) (hmembers member hmember))
          · rwa [Keyed.keys_map, Keyed.keys_map]
      | number x => exact hf x
      | null | boolean _ | string _ => rfl

end Document

/-! ### Numbers that are printed and read -/

namespace Json

open Text (Stops stops_nil)

/-- What the text of a number says: the number apart from the sign of zero, or null. -/
def shown (x : Binary64) : Document :=
  (Value.number x).reloaded.toDocument

theorem shown_of_isFinite {x : Binary64} (h : x.isFinite = true) :
    shown x = .number x.mergeZeros := by
  rw [shown, Value.reloaded, if_pos h]
  rfl

theorem shown_of_not_isFinite {x : Binary64} (h : x.isFinite = false) : shown x = .null := by
  rw [shown, Value.reloaded, if_neg (by rw [h]; decide)]
  rfl

/-- What is read off the text of a number. -/
def reread (x : Binary64) : Document :=
  match readNumber? (numberText x) with
  | some (y, _) => .number y
  | none => .null

theorem reread_of_readNumber? {x y : Binary64} {rest : List Char}
    (h : readNumber? (numberText x) = some (y, rest)) : reread x = .number y := by
  rw [reread, h]

theorem numberText_of_not_isFinite {x : Binary64} (h : x.isFinite = false) :
    numberText x = ['n', 'u', 'l', 'l'] := by
  have hnone : ¬x.HasIntegerText := by
    rintro ⟨n, hn, -⟩
    rw [toInt?_of_not_isFinite h] at hn
    simp at hn
  rw [numberText_of_not_integer hnone, shortestText_of_not_isFinite h]

theorem reread_of_not_isFinite {x : Binary64} (h : x.isFinite = false) : reread x = shown x := by
  rw [shown_of_not_isFinite h, reread, numberText_of_not_isFinite h]
  rfl

theorem reread_of_isFinite {x : Binary64} (h : x.isFinite = true) :
    ∃ y : Binary64, y.isFinite = true ∧ readNumber? (numberText x) = some (y, []) ∧
      reread x = .number y := by
  obtain ⟨y, hy, hread⟩ := exists_readNumber?_numberText h
  exact ⟨y, hy, hread, reread_of_readNumber? hread⟩

theorem reread_of_readsBack {x : Binary64} (h : x.isFinite = true) (hreads : x.ReadsBack) :
    reread x = shown x := by
  rw [shown_of_isFinite h]
  by_cases hinteger : x.HasIntegerText
  · obtain ⟨n, hx, hn⟩ := hinteger
    have hread := readNumber?_integerText (show n.natAbs < 2 ^ 64 by omega)
    rw [← numberText_of_integer hx hn, Binary64.ofInt_of_toInt? hx] at hread
    exact reread_of_readNumber? hread
  · have hread := hreads h hinteger
    rw [← numberText_of_not_integer hinteger] at hread
    rw [reread_of_readNumber? hread, mergeZeros_of_not_integer hinteger]

/-- What becomes of a number that is printed and read. -/
structure Rereads (x : Binary64) : Prop where
  /-- Numbers without a text are null, and integers and numbers with few digits come back
  as they are, apart from the sign of zero. -/
  same : x.isFinite = false ∨ x.HasIntegerText ∨ x.HasFewDigits → reread x = shown x
  /-- Every finite number comes back as some finite number. -/
  finite : x.isFinite = true → ∃ y : Binary64, y.isFinite = true ∧ reread x = .number y
  /-- The digits that stand in the text are those of the number itself. -/
  nearest : x.isFinite = true → readNearest? (numberText x) = some (x.mergeZeros, [])

theorem rereads (x : Binary64) : Rereads x where
  same := by
    cases hx : x.isFinite with
    | false => exact fun _ => reread_of_not_isFinite hx
    | true =>
        rintro (hfalse | hinteger | hfew)
        · exact absurd hfalse (by decide)
        · exact reread_of_readsBack hx fun _ hnone => absurd hinteger hnone
        · exact reread_of_readsBack hx hfew.readsBack
  finite hx := by
    obtain ⟨y, hy, -, hreread⟩ := reread_of_isFinite hx
    exact ⟨y, hy, hreread⟩
  nearest hx := by simpa using readNearest?_numberText hx stops_nil

theorem settled_reread (x : Binary64) : (reread x).settled = reread x := by
  unfold reread
  split <;> rfl

theorem scalarText_reread (x : Binary64) : ScalarText (reread x) (numberText x) := by
  cases hx : x.isFinite with
  | false =>
      rw [reread_of_not_isFinite hx, shown_of_not_isFinite hx, numberText_of_not_isFinite hx]
      exact .null
  | true =>
      obtain ⟨y, -, hread, hy⟩ := reread_of_isFinite hx
      rw [hy]
      exact .number hread

variable {layout : Layout} {depth : Nat} {rest : List Char}

def isContainer : Document → Bool
  | .array _ | .object _ => true
  | _ => false

theorem readQuoted?_quote (s : List Char) (rest : List Char) :
    ∃ text, quote s ++ rest = '"' :: text ∧ readQuoted? text = some (s, rest) := by
  refine ⟨s.flatMap escape ++ '"' :: rest, by simp [quote], ?_⟩
  exact readQuoted?_of_stringBody (stringBody_escape s) rest

theorem head_numberText (x : Binary64) :
    ∃ c s, numberText x = c :: s ∧ (x.isFinite = true ∧ (c = '-' ∨ c.isDigit = true) ∨
      x.isFinite = false ∧ c = 'n') := by
  cases hx : x.isFinite with
  | false => exact ⟨'n', _, numberText_of_not_isFinite hx, .inr ⟨rfl, rfl⟩⟩
  | true =>
      obtain ⟨y, -, hread⟩ := exists_readNumber?_numberText hx
      obtain ⟨c, s, htext, hc⟩ := head_of_readNumber? hread
      exact ⟨c, s, htext, .inl ⟨rfl, hc⟩⟩

theorem stops_isGap_numberText (x : Binary64) (rest : List Char) :
    Stops isGap (numberText x ++ rest) := by
  obtain ⟨c, s, htext, ⟨-, hc⟩ | ⟨-, rfl⟩⟩ := head_numberText x
  · rw [htext]
    exact isGap_of_head hc
  · rw [htext]
    rfl

theorem stops_isGap_scalar {document : Document} (h : isContainer document = false)
    (rest : List Char) : Stops isGap (write layout depth document ++ rest) := by
  cases document with
  | array _ | object _ => simp [isContainer] at h
  | null => rfl
  | boolean b => cases b <;> rfl
  | string s => rfl
  | number x => exact stops_isGap_numberText x rest

theorem readScalar?_numberText (x : Binary64) (hrest : Stops isNumeral rest) :
    readScalar? readNearest? (numberText x ++ rest) = some (shown x, rest) := by
  cases hx : x.isFinite with
  | false =>
      rw [numberText_of_not_isFinite hx, shown_of_not_isFinite hx]
      rfl
  | true =>
      obtain ⟨c, s, htext, hcases⟩ := head_numberText x
      have hc := hcases.resolve_right fun h => by simp [hx] at h
      have hread := readNearest?_numberText hx hrest
      rw [htext, List.cons_append] at hread ⊢
      rw [readScalar?_of_head hc.2, hread, Option.map_some, shown_of_isFinite hx]

theorem readScalar?_write {document : Document} (h : isContainer document = false)
    (hrest : Stops isNumeral rest) :
    readScalar? readNearest? (write layout depth document ++ rest) =
      some (document.mapNumbers shown, rest) := by
  cases document with
  | array _ | object _ => simp [isContainer] at h
  | null => rfl
  | boolean b => cases b <;> rfl
  | number x => exact readScalar?_numberText x hrest
  | string s =>
      obtain ⟨text, htext, hread⟩ := readQuoted?_quote s.toList rest
      rw [write, htext, readScalar?, hread, Option.map_some]
      simp only [String.ofList_toList, Document.mapNumbers]

/-! ### Documents that are printed and read -/

theorem textOf_write (hlayout : layout.Neutral) {scalar : Document → List Char → Prop}
    {f : Binary64 → Document}
    (hscalar : ∀ (document : Document) (depth : Nat), isContainer document = false →
      scalar (document.mapNumbers f) (write layout depth document)) (levels : Nat) :
    ∀ (document : Document) (depth : Nat), document.NestsWithin levels →
      TextOf scalar levels (document.mapNumbers f) (write layout depth document) := by
  induction levels with
  | zero =>
      intro document depth hnests
      cases document with
      | array _ | object _ => exact hnests.elim
      | null | boolean _ | number _ | string _ => exact hscalar _ depth rfl
  | succ levels ih =>
      intro document depth hnests
      cases document with
      | null | boolean _ | number _ | string _ => exact .inl (hscalar _ depth rfl)
      | array items =>
          have hitems : ArrayText (TextOf scalar levels) (items.map (Document.mapNumbers f))
              (write layout depth (.array (items.map id))) :=
            arrayText_write hlayout fun item hitem => ih item (depth + 1) (hnests item hitem)
          rw [List.map_id] at hitems
          rw [Document.mapNumbers_array]
          exact .inr (.array hitems)
      | object members =>
          have hmembers : ObjectText (TextOf scalar levels)
              (members.map fun (name, value) => (name, value.mapNumbers f))
              (write layout depth (.object (members.map fun (name, value) => (name, id value)))) :=
            objectText_write hlayout
              fun name value hmember => ih value (depth + 1) (hnests (name, value) hmember)
          simp only [id, Prod.mk.eta, List.map_id_fun'] at hmembers
          rw [Document.mapNumbers_object]
          exact .inr (.object hmembers)

theorem scalarText_write_reread (document : Document) (depth : Nat)
    (h : isContainer document = false) :
    ScalarText (document.mapNumbers reread) (write layout depth document) := by
  cases document with
  | array _ | object _ => simp [isContainer] at h
  | null => exact .null
  | boolean b => cases b <;> constructor
  | number x => exact scalarText_reread x
  | string s => exact .string (stringText_quote s)

/-- What an exact reader takes off a text, whatever follows. -/
def ExactText (document : Document) (s : List Char) : Prop :=
  document.settled = document ∧ ∀ rest : List Char, Stops isNumeral rest →
    readScalar? readNearest? (s ++ rest) = some (document, rest) ∧ Stops isGap (s ++ rest)

theorem reads_exactText : Reads ExactText (readScalar? readNearest?) Document.settled := by
  intro document s hs rest hrest
  rw [hs.1]
  exact hs.2 rest hrest

theorem settled_shown (x : Binary64) : (shown x).settled = shown x := by
  rw [shown]
  cases (Value.number x).reloaded <;> rfl

theorem exactText_write (document : Document) (depth : Nat) (h : isContainer document = false) :
    ExactText (document.mapNumbers shown) (write layout depth document) := by
  refine ⟨?_, fun rest hrest => ⟨readScalar?_write h hrest, stops_isGap_scalar h rest⟩⟩
  cases document with
  | array _ | object _ => simp [isContainer] at h
  | number x => exact settled_shown x
  | null | boolean _ | string _ => rfl

theorem refusesBrackets_readNearest? : RefusesBrackets readNearest? := by
  intro rest
  constructor <;> simp [readNearest?, readDecimal?, readWhole?, readDigits?]

end Json

/-- Reads a whole text as one document, with the nearest number to every decimal in it. -/
def Document.readExactly? (text : String) : Option Document :=
  (Json.readWith? Json.readNearest? Json.maxDepth (Json.skipBlanks text.toList)).bind
    fun (document, rest) => if (Json.skipBlanks rest).isEmpty then some document else none

namespace Json

section Render

variable {document : Document} (h : document.NestsWithin maxDepth) (isPretty : Bool)

include h

/-- A printed document is a text of the document with its numbers reread. -/
theorem holds_render :
    Holds (document.render (.ofPretty isPretty)) (document.mapNumbers reread) := by
  refine ⟨[], write (.ofPretty isPretty) 0 document, [], by simp [Document.render], blanks_nil, ?_,
    blanks_nil⟩
  rw [← textOf_scalarText]
  exact textOf_write (neutral_ofPretty isPretty) scalarText_write_reread maxDepth document 0 h

variable (hsettled : document.settled = document)

include hsettled

theorem read?_render :
    Document.read? (document.render (.ofPretty isPretty)) = some (document.mapNumbers reread) := by
  rw [read?_of_holds (holds_render h isPretty),
    Document.settled_mapNumbers settled_reread maxDepth document h hsettled]

/-- An exact reader reads it back as it was, as far as its numbers have texts. -/
theorem readExactly?_render :
    Document.readExactly? (document.render (.ofPretty isPretty)) =
      some (document.mapNumbers shown) := by
  have htext : (document.render (.ofPretty isPretty)).toList =
      [] ++ write (.ofPretty isPretty) 0 document ++ [] := by simp [Document.render]
  rw [Document.readExactly?, htext]
  rw [bind_read_of_reads (reads_textOf refusesBrackets_readNearest? reads_exactText maxDepth)
      blanks_nil (textOf_write (neutral_ofPretty isPretty) exactText_write maxDepth document 0 h)
      blanks_nil,
    Document.settled_mapNumbers settled_shown maxDepth document h hsettled]

end Render

end Json

end TableQuery
