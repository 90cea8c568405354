import TableQuery.Json.Document
import TableQuery.Json.Number
import TableQuery.Json.Reader
import TableQuery.Proofs.Json.Strings

/-!
The texts of documents. A text says of every object which members were written,
repeated names included, so the document that is written is not yet the one that
is read. A number is written in the ways in which it is read.

Scalars have no parts, and a container is written by writing its parts one level
further down. So the grammar goes by the number of levels that are left, as the
reader does.
-/

namespace TableQuery

namespace Json

def Blanks (s : List Char) : Prop :=
  ∀ c ∈ s, isBlank c = true

theorem blanks_nil : Blanks [] := by
  simp [Blanks]

/-- The texts of one or more items with commas between them, and with blanks on both
sides of each comma and after the last item. -/
inductive Separated {α : Type} (item : α → List Char → Prop) : List α → List Char → Prop
  | last {a : α} {s after : List Char} :
      item a s → Blanks after → Separated item [a] (s ++ after)
  | cons {a : α} {as : List α} {s after before tail : List Char} :
      item a s → Blanks after → Blanks before → Separated item as tail →
      Separated item (a :: as) (s ++ (after ++ ',' :: (before ++ tail)))

/-- The texts of items between brackets, without commas and items where the list is
empty. -/
inductive Enclosed {α : Type} (opening closing : Char) (item : α → List Char → Prop) :
    List α → List Char → Prop
  | empty {blanks : List Char} :
      Blanks blanks → Enclosed opening closing item [] (opening :: (blanks ++ [closing]))
  | items {as : List α} {before s : List Char} :
      Blanks before → Separated item as s →
      Enclosed opening closing item as (opening :: (before ++ (s ++ [closing])))

/-- The texts of a name, a colon and a value. -/
inductive Member {α : Type} (value : α → List Char → Prop) : String × α → List Char → Prop
  | intro {name : String} {v : α} {s before after t : List Char} :
      StringText name s → Blanks before → Blanks after → value v t →
      Member value (name, v) (s ++ (before ++ ':' :: (after ++ t)))

abbrev ArrayText {α : Type} (item : α → List Char → Prop) : List α → List Char → Prop :=
  Enclosed '[' ']' item

abbrev ObjectText {α : Type} (value : α → List Char → Prop) :
    List (String × α) → List Char → Prop :=
  Enclosed '\x7b' '\x7d' (Member value)

section Map

variable {α β : Type} {f : α → β}

theorem Separated.map {item : α → List Char → Prop} {item' : β → List Char → Prop}
    {items : List α} {s : List Char} (hs : Separated item items s)
    (h : ∀ a ∈ items, ∀ t, item a t → item' (f a) t) : Separated item' (items.map f) s := by
  induction hs with
  | last hitem hafter => exact .last (h _ (by simp) _ hitem) hafter
  | cons hitem hafter hbefore _ ih =>
      refine .cons (h _ (by simp) _ hitem) hafter hbefore (ih ?_)
      exact fun a ha => h a (List.mem_cons_of_mem _ ha)

theorem Enclosed.map {opening closing : Char} {item : α → List Char → Prop}
    {item' : β → List Char → Prop} {items : List α} {s : List Char}
    (hs : Enclosed opening closing item items s)
    (h : ∀ a ∈ items, ∀ t, item a t → item' (f a) t) :
    Enclosed opening closing item' (items.map f) s := by
  cases hs with
  | empty hblanks => exact .empty hblanks
  | items hbefore hitems => exact .items hbefore (hitems.map h)

theorem Member.map {value : α → List Char → Prop} {value' : β → List Char → Prop}
    {member : String × α} {s : List Char} (hs : Member value member s)
    (h : ∀ t, value member.2 t → value' (f member.2) t) :
    Member value' (member.1, f member.2) s := by
  cases hs with
  | intro hname hbefore hafter hvalue => exact .intro hname hbefore hafter (h _ hvalue)

end Map

inductive ScalarText : Document → List Char → Prop
  | null : ScalarText .null ['n', 'u', 'l', 'l']
  | true : ScalarText (.boolean true) ['t', 'r', 'u', 'e']
  | false : ScalarText (.boolean false) ['f', 'a', 'l', 's', 'e']
  /-- The texts of a number are those that are read to it as a whole. -/
  | number {x : Binary64} {s : List Char} :
      readNumber? s = some (x, []) → ScalarText (.number x) s
  | string {contents : String} {s : List Char} :
      StringText contents s → ScalarText (.string contents) s

/-- The texts of arrays and objects, given those of their parts. -/
inductive ContainerText (part : Document → List Char → Prop) : Document → List Char → Prop
  | array {items : List Document} {s : List Char} :
      ArrayText part items s → ContainerText part (.array items) s
  | object {members : List (String × Document)} {s : List Char} :
      ObjectText part members s → ContainerText part (.object members) s

/-- The texts of documents whose containers nest no deeper than a bound. -/
def DocumentText : Nat → Document → List Char → Prop
  | 0, document, s => ScalarText document s
  | depth + 1, document, s =>
    ScalarText document s ∨ ContainerText (DocumentText depth) document s

/-- A text holds one document between blanks, nested no deeper than is read. -/
def Holds (text : String) (document : Document) : Prop :=
  ∃ before s after, text.toList = before ++ s ++ after ∧ Blanks before ∧
    DocumentText maxDepth document s ∧ Blanks after

end Json

end TableQuery
