import TableQuery.Json.Encoding
import TableQuery.Proofs.Binary64.Integer
import TableQuery.Proofs.Json.Grammar
import TableQuery.Proofs.Json.Numbers

/-!
What is printed is a text of the grammar. A layout puts nothing but blanks
between the tokens, so the texts of both layouts are texts of the same document.
It is the printed document except for its numbers: a number that is not finite is
printed as null, and negative zero as an integer, which has one zero. The other
numbers outside the integers of sixty-four bits are printed with their shortest
digits, and here it stays open whether these are read back.
-/

namespace TableQuery

namespace Binary64

/-- The number is printed with all digits of an integer. -/
def HasIntegerText (x : Binary64) : Prop :=
  ∃ n, x.toInt? = some n ∧ n.natAbs < 2 ^ 63

/-- The digits printed for the number, if they are not those of an integer, are read back
to it. -/
def ReadsBack (x : Binary64) : Prop :=
  x.isFinite = true → ¬x.HasIntegerText → Json.readNumber? (Json.shortestText x) = some (x, [])

end Binary64

/-- The value that comes back when a value is printed and read. -/
def Value.reloaded : Value → Value
  | number x => if x.isFinite then number x.mergeZeros else null
  | value => value

namespace Json

theorem shortestText_of_not_isFinite {x : Binary64} (h : x.isFinite = false) :
    shortestText x = ['n', 'u', 'l', 'l'] := by
  cases x with
  | nan => rfl
  | signed negative code =>
      have hcode : ¬code.val < infinityCode := by
        rw [← Binary64.isFinite_signed negative, h]
        decide
      rw [shortestText, if_neg hcode]
      rfl

theorem toInt?_of_not_isFinite {x : Binary64} (h : x.isFinite = false) : x.toInt? = none := by
  rw [Binary64.isFinite, Option.isSome_eq_false_iff, Option.isNone_iff_eq_none] at h
  rw [Binary64.toInt?, h, Option.bind_none]

theorem isInteger_iff {x : Binary64} : isInteger x = true ↔ x.HasIntegerText := by
  have hbelow {n : Int} (h : x.toInt? = some n) :
      x.abs.order? (.ofInt Int64.maxValue.toInt) = some .lt ↔ n.natAbs < 2 ^ 63 := by
    have hvalue := Binary64.value?_eq_intCast_iff.mpr h
    rw [Binary64.order?_abs_eq_lt_iff hvalue Binary64.value?_ofInt_maxValue, ← Int.cast_abs,
      Int.abs_eq_natAbs]
    norm_cast
  rw [isInteger, Bool.and_eq_true, beq_iff_eq, Binary64.equals_zero_fraction]
  constructor
  · rintro ⟨⟨n, h⟩, hlt⟩
    exact ⟨n, h, (hbelow h).mp hlt⟩
  · rintro ⟨n, h, hn⟩
    exact ⟨⟨n, h⟩, (hbelow h).mpr hn⟩

theorem numberText_of_integer {x : Binary64} {n : Int} (h : x.toInt? = some n)
    (hn : n.natAbs < 2 ^ 63) : numberText x = integerText n := by
  rw [numberText, if_pos (isInteger_iff.mpr ⟨n, h, hn⟩), Binary64.toInt_toInt64 h hn]

theorem numberText_of_not_integer {x : Binary64} (h : ¬x.HasIntegerText) :
    numberText x = shortestText x := by
  rw [numberText, if_neg (mt isInteger_iff.mp h)]

/-- Both zeros are integers, so merging them changes no number that is printed with its
shortest digits. -/
theorem mergeZeros_of_not_integer {x : Binary64} (h : ¬x.HasIntegerText) : x.mergeZeros = x := by
  cases x with
  | nan => rfl
  | signed negative code =>
      rw [Binary64.mergeZeros]
      split
      · rename_i hcode
        exact absurd ⟨0, Binary64.toInt?_of_code_zero negative hcode, by decide⟩ h
      · rfl

theorem scalarText_numberText {x : Binary64} (h : x.ReadsBack) :
    ScalarText (Value.number x).reloaded.toDocument (numberText x) := by
  rw [Value.reloaded]
  cases hfinite : x.isFinite with
  | false =>
      have hnone : ¬x.HasIntegerText := by
        rintro ⟨n, hn, -⟩
        rw [toInt?_of_not_isFinite hfinite] at hn
        simp at hn
      rw [numberText_of_not_integer hnone, shortestText_of_not_isFinite hfinite]
      exact .null
  | true =>
      rw [if_pos rfl]
      by_cases hinteger : x.HasIntegerText
      · obtain ⟨n, hx, hn⟩ := hinteger
        rw [numberText_of_integer hx hn, ← Binary64.ofInt_of_toInt? hx]
        exact .number (readNumber?_integerText (by omega))
      · rw [numberText_of_not_integer hinteger, mergeZeros_of_not_integer hinteger]
        exact .number (h hfinite hinteger)

/-- The layout adds only blanks. -/
structure Layout.Neutral (layout : Layout) : Prop where
  newline : ∀ depth, Blanks (layout.newline depth)
  colon : ∃ after, Blanks after ∧ layout.colon = ':' :: after

theorem neutral_ofPretty (isPretty : Bool) : (Layout.ofPretty isPretty).Neutral := by
  cases isPretty with
  | false =>
      refine ⟨fun _ => blanks_nil, [], blanks_nil, rfl⟩
  | true =>
      refine ⟨fun depth c hc => ?_, [' '], by simp [Blanks, isBlank], rfl⟩
      rcases List.mem_cons.mp hc with rfl | hc
      · rfl
      · rw [List.eq_of_mem_replicate hc]
        rfl

section Containers

variable {α β : Type} {layout : Layout} {depth : Nat}

theorem separated_flatMap {item : β → List Char → Prop} {meant : α → β} {text : α → List Char}
    {newline after : List Char} (hnewline : Blanks newline) (hafter : Blanks after) {a : α}
    {as : List α} (h : ∀ b ∈ a :: as, item (meant b) (text b)) :
    Separated item ((a :: as).map meant)
      (text a ++ (as.flatMap (fun b => ',' :: (newline ++ text b)) ++ after)) := by
  induction as generalizing a with
  | nil => exact .last (h a (by simp)) hafter
  | cons b as ih =>
      have htail := ih fun c hc => h c (List.mem_cons_of_mem _ hc)
      have hcons := Separated.cons (h a (by simp)) blanks_nil hnewline htail
      simpa using hcons

variable {item : β → List Char → Prop} {printed : α → Document} {meant : α → β}

theorem writeItems_map (items : List α) :
    writeItems layout depth (items.map printed) =
      items.flatMap fun a => ',' :: (layout.newline depth ++ write layout depth (printed a)) := by
  induction items with
  | nil => rfl
  | cons a items ih => rw [List.map_cons, writeItems, ih, List.flatMap_cons, List.cons_append]

theorem arrayText_write (hlayout : layout.Neutral) {items : List α}
    (h : ∀ a ∈ items, item (meant a) (write layout (depth + 1) (printed a))) :
    ArrayText item (items.map meant) (write layout depth (.array (items.map printed))) := by
  cases items with
  | nil => exact .empty blanks_nil
  | cons a items =>
      have hitems := separated_flatMap (hlayout.newline (depth + 1)) (hlayout.newline depth) h
      have htext : ArrayText item ((a :: items).map meant) _ :=
        .items (hlayout.newline (depth + 1)) hitems
      simpa [write, writeItems_map] using htext

def memberText (layout : Layout) (depth : Nat) (name : String) (value : Document) : List Char :=
  quote name.toList ++ layout.colon ++ write layout depth value

theorem writeMembers_map (members : List (String × α)) :
    writeMembers layout depth (members.map fun (name, a) => (name, printed a)) =
      members.flatMap fun (name, a) =>
        ',' :: (layout.newline depth ++ memberText layout depth name (printed a)) := by
  induction members with
  | nil => rfl
  | cons member members ih =>
      rw [List.map_cons, writeMembers, ih, List.flatMap_cons, List.cons_append, memberText]
      simp only [List.append_assoc]

theorem member_memberText (hlayout : layout.Neutral) (name : String) {a : α}
    (h : item (meant a) (write layout depth (printed a))) :
    Member item (name, meant a) (memberText layout depth name (printed a)) := by
  obtain ⟨after, hafter, hcolon⟩ := hlayout.colon
  have hmember := Member.intro (stringText_quote name) blanks_nil hafter h
  simpa [memberText, hcolon] using hmember

theorem objectText_write (hlayout : layout.Neutral) {members : List (String × α)}
    (h : ∀ name a, (name, a) ∈ members → item (meant a) (write layout (depth + 1) (printed a))) :
    ObjectText item (members.map fun (name, a) => (name, meant a))
      (write layout depth (.object (members.map fun (name, a) => (name, printed a)))) := by
  cases members with
  | nil => exact .empty blanks_nil
  | cons member members =>
      have hmember : ∀ entry ∈ member :: members, Member item (entry.1, meant entry.2)
          (memberText layout (depth + 1) entry.1 (printed entry.2)) :=
        fun entry hentry => member_memberText hlayout entry.1 (h entry.1 entry.2 hentry)
      have hmembers := separated_flatMap (hlayout.newline (depth + 1)) (hlayout.newline depth)
        hmember
      have htext : ObjectText item ((member :: members).map fun (name, a) => (name, meant a)) _ :=
        .items (hlayout.newline (depth + 1)) hmembers
      simpa [write, writeMembers_map, memberText] using htext

end Containers

end Json

end TableQuery
