import TableQuery.Proofs.Json.Grammar
import TableQuery.Proofs.Json.Numbers
import TableQuery.Proofs.Json.Settled

/-!
The reader reads every text of the grammar, whatever blanks and spellings it
uses, to the document that is meant by it. Each part is read in front of any rest
that does not go on with a number, and the rest is left. Nothing of this depends on
how the numbers are read, so the reader of numbers is a parameter.
-/

namespace TableQuery.Json

open Text (Stops stops_nil stops_cons)

/-- What can stand where an item may begin without being its beginning: blanks, or
the end of the container. -/
def isGap (c : Char) : Bool :=
  isBlank c || c = ']' || c = '\x7d'

theorem isNumeral_of_isBlank {c : Char} (h : isBlank c = true) : isNumeral c = false := by
  simp only [isBlank, Bool.or_eq_true, decide_eq_true_eq] at h
  rcases h with ((rfl | rfl) | rfl) | rfl <;> decide

section Blanks

variable {blanks rest : List Char}

theorem stops_isNumeral_blanks (h : Blanks blanks) (hrest : Stops isNumeral rest) :
    Stops isNumeral (blanks ++ rest) :=
  Text.stops_append (fun c hc => isNumeral_of_isBlank (h c hc)) hrest

theorem stops_isBlank (h : Stops isGap rest) : Stops isBlank rest := by
  cases rest with
  | nil => trivial
  | cons c rest =>
      rw [stops_cons, isGap] at h
      simp_all

theorem skipBlanks_append (h : Blanks blanks) (hrest : Stops isBlank rest) :
    skipBlanks (blanks ++ rest) = rest :=
  Text.dropWhile_append h hrest

end Blanks

/-- The reader takes the texts of an item off any rest that does not go on with a
number, and returns what the item means. No such text begins with a gap. -/
def Reads {α β : Type} (item : α → List Char → Prop) (read : List Char → Option (β × List Char))
    (meaning : α → β) : Prop :=
  ∀ (a : α) (s : List Char), item a s → ∀ rest : List Char, Stops isNumeral rest →
    read (s ++ rest) = some (meaning a, rest) ∧ Stops isGap (s ++ rest)

section Items

variable {α β : Type} {item : α → List Char → Prop} {read : List Char → Option (β × List Char)}
  {meaning : α → β} {close : Char} {text tail rest : List Char} {b : β}

theorem readItems?_close (hitem : read (skipBlanks text) = some (b, tail))
    (hclose : skipBlanks tail = close :: rest) :
    readItems? close read text = some ([b], rest) := by
  rw [readItems?, hitem]
  simp only [hclose, if_true]

theorem readItems?_comma (hclose : close ≠ ',') (hitem : read (skipBlanks text) = some (b, tail))
    (hcomma : skipBlanks tail = ',' :: rest) (hlength : rest.length < text.length) :
    readItems? close read text =
      (readItems? close read rest).map fun (items, rest) => (b :: items, rest) := by
  rw [readItems?, hitem]
  simp only [hcomma]
  rw [if_neg hclose.symm, if_pos]
  · exact ⟨trivial, hlength⟩

theorem Separated.stops_isGap (h : Reads item read meaning) {items : List α} {s : List Char}
    (hs : Separated item items s) (hrest : Stops isNumeral rest) : Stops isGap (s ++ rest) := by
  cases hs with
  | last hitem hafter =>
      rw [List.append_assoc]
      exact (h _ _ hitem _ (stops_isNumeral_blanks hafter hrest)).2
  | cons hitem hafter _ _ =>
      rw [List.append_assoc, List.append_assoc]
      exact (h _ _ hitem _ (stops_isNumeral_blanks hafter (stops_cons.mpr rfl))).2

theorem readItems?_separated (h : Reads item read meaning) (hclose : close = ']' ∨ close = '\x7d')
    {items : List α} {before s : List Char} (hbefore : Blanks before) (hs : Separated item items s)
    (rest : List Char) :
    readItems? close read (before ++ (s ++ close :: rest)) = some (items.map meaning, rest) := by
  have hcomma : close ≠ ',' := by rcases hclose with rfl | rfl <;> decide
  have hnumeral : isNumeral close = false := by rcases hclose with rfl | rfl <;> rfl
  have hblank : isBlank close = false := by rcases hclose with rfl | rfl <;> rfl
  induction hs generalizing before with
  | @last a s after hitem hafter =>
      have hrest : Stops isNumeral (after ++ close :: rest) :=
        stops_isNumeral_blanks hafter hnumeral
      obtain ⟨hread, hgap⟩ := h _ _ hitem _ hrest
      refine readItems?_close ?_ (skipBlanks_append hafter hblank)
      rwa [List.append_assoc, skipBlanks_append hbefore (stops_isBlank hgap)]
  | @cons a as s after before' tail hitem hafter hbefore' _ ih =>
      have hrest : Stops isNumeral (after ++ ',' :: (before' ++ (tail ++ close :: rest))) :=
        stops_isNumeral_blanks hafter rfl
      obtain ⟨hread, hgap⟩ := h _ _ hitem _ hrest
      have hsplit : s ++ (after ++ ',' :: (before' ++ tail)) ++ close :: rest =
          s ++ (after ++ ',' :: (before' ++ (tail ++ close :: rest))) := by simp
      rw [hsplit, readItems?_comma hcomma ?_ (skipBlanks_append hafter rfl) ?_, ih hbefore']
      · rfl
      · rwa [skipBlanks_append hbefore (stops_isBlank hgap)]
      · simp only [List.length_append, List.length_cons]
        omega

/-- The blanks after the opening bracket are dropped before the items are read, and what
is left then tells an empty container from others. -/
theorem Enclosed.readItems (h : Reads item read meaning) {opening : Char}
    (hclose : close = ']' ∨ close = '\x7d') {items : List α} {s : List Char}
    (hs : Enclosed opening close item items s) (rest : List Char) :
    ∃ text, s ++ rest = opening :: text ∧
      (items = [] ∧ skipBlanks text = close :: rest ∨
        Stops isGap (skipBlanks text) ∧
          readItems? close read (skipBlanks text) = some (items.map meaning, rest)) := by
  cases hs with
  | @empty blanks hblanks =>
      have hblank : Stops isBlank (close :: rest) := by rcases hclose with rfl | rfl <;> rfl
      refine ⟨blanks ++ close :: rest, by simp, .inl ⟨rfl, ?_⟩⟩
      exact skipBlanks_append hblanks hblank
  | @items as before s hbefore hitems =>
      have hnumeral : Stops isNumeral (close :: rest) := by rcases hclose with rfl | rfl <;> rfl
      have hgap := hitems.stops_isGap h hnumeral
      refine ⟨before ++ (s ++ close :: rest), by simp, .inr ?_⟩
      rw [skipBlanks_append hbefore (stops_isBlank hgap)]
      exact ⟨hgap, readItems?_separated h hclose blanks_nil hitems rest⟩

end Items

theorem reads_member {α β : Type} {value : α → List Char → Prop}
    {read : List Char → Option (β × List Char)} {meaning : α → β} (h : Reads value read meaning) :
    Reads (Member value) (readMember? read) fun (name, v) => (name, meaning v) := by
  intro member s hmember rest hrest
  cases hmember with
  | @intro name v s before after t hname hbefore hafter hvalue =>
      obtain ⟨body, hbody, rfl⟩ := hname
      obtain ⟨hread, hgap⟩ := h _ _ hvalue _ hrest
      have hsplit : '"' :: (body ++ ['"']) ++ (before ++ ':' :: (after ++ t)) ++ rest =
          '"' :: (body ++ '"' :: (before ++ ':' :: (after ++ (t ++ rest)))) := by simp
      rw [hsplit]
      refine ⟨?_, rfl⟩
      rw [readMember?, readQuoted?_of_stringBody hbody, Option.bind_some]
      simp only [skipBlanks_append hbefore (show Stops isBlank (':' :: _) from rfl),
        skipBlanks_append hafter (stops_isBlank hgap), hread, Option.map_some, String.ofList_toList]

/-! ### The reader of numbers as a parameter -/

def readScalar? (number : List Char → Option (Binary64 × List Char)) :
    List Char → Option (Document × List Char)
  | 'n' :: 'u' :: 'l' :: 'l' :: rest => some (.null, rest)
  | 't' :: 'r' :: 'u' :: 'e' :: rest => some (.boolean true, rest)
  | 'f' :: 'a' :: 'l' :: 's' :: 'e' :: rest => some (.boolean false, rest)
  | '"' :: rest =>
    (readQuoted? rest).map fun (contents, rest) => (.string (String.ofList contents), rest)
  | text => (number text).map fun (x, rest) => (.number x, rest)

/-- Reads a document as the reader of documents does, but with another reader for its
numbers. -/
def readWith? (number : List Char → Option (Binary64 × List Char)) :
    Nat → List Char → Option (Document × List Char)
  | levels + 1, '[' :: rest =>
    match skipBlanks rest with
    | ']' :: rest => some (.array [], rest)
    | rest =>
      (readItems? ']' (readWith? number levels) rest).map fun (items, rest) => (.array items, rest)
  | levels + 1, '\x7b' :: rest =>
    match skipBlanks rest with
    | '\x7d' :: rest => some (.object [], rest)
    | rest =>
      (readItems? '\x7d' (readMember? (readWith? number levels)) rest).map fun (members, rest) =>
        (.object (Keyed.ofPairs members), rest)
  | _, text => readScalar? number text

/-- No number begins with a bracket or a brace. -/
def RefusesBrackets (number : List Char → Option (Binary64 × List Char)) : Prop :=
  ∀ rest, number ('[' :: rest) = none ∧ number ('\x7b' :: rest) = none

theorem refusesBrackets_readNumber? : RefusesBrackets readNumber? := by
  intro rest
  constructor <;> simp [readNumber?, readMagnitude?, readWhole?, readDigits?]

theorem readWith?_readNumber? (levels : Nat) :
    readWith? readNumber? levels = readValue? levels := by
  induction levels with
  | zero =>
      funext text
      rw [readValue?.eq_def]
      split
      · rfl
      · rfl
      · rfl
      · rfl
      · simp [readWith?, readScalar?, refusesBrackets_readNumber? _]
      · simp [readWith?, readScalar?, refusesBrackets_readNumber? _]
      · rw [readWith?, readScalar?]
        all_goals simp_all
  | succ levels ih =>
      funext text
      rw [readValue?.eq_def]
      split
      · rfl
      · rfl
      · rfl
      · rfl
      · dsimp only
        rw [← ih]
        rfl
      · dsimp only
        rw [← ih]
        rfl
      · rw [readWith?, readScalar?]
        all_goals simp_all

/-- The texts of documents, given those of scalars. -/
def TextOf (scalar : Document → List Char → Prop) : Nat → Document → List Char → Prop
  | 0, document, s => scalar document s
  | levels + 1, document, s =>
    scalar document s ∨ ContainerText (TextOf scalar levels) document s

theorem textOf_scalarText (levels : Nat) : TextOf ScalarText levels = DocumentText levels := by
  induction levels with
  | zero => rfl
  | succ levels ih =>
      funext document s
      rw [TextOf, DocumentText, ih]

section Number

variable {number : List Char → Option (Binary64 × List Char)} {levels : Nat} {text rest : List Char}

theorem readWith?_array (h : Stops isGap (skipBlanks text)) :
    readWith? number (levels + 1) ('[' :: text) =
      (readItems? ']' (readWith? number levels) (skipBlanks text)).map fun (items, rest) =>
        (.array items, rest) := by
  rw [readWith?]
  split
  · rename_i heq
    rw [heq] at h
    simp [isGap] at h
  · rfl

theorem readWith?_object (h : Stops isGap (skipBlanks text)) :
    readWith? number (levels + 1) ('\x7b' :: text) =
      (readItems? '\x7d' (readMember? (readWith? number levels)) (skipBlanks text)).map
        fun (members, rest) => (.object (Keyed.ofPairs members), rest) := by
  rw [readWith?]
  split
  · rename_i heq
    rw [heq] at h
    simp [isGap] at h
  · rfl

theorem readWith?_of_readScalar? (hnumber : RefusesBrackets number) {document : Document}
    (h : readScalar? number text = some (document, rest)) :
    readWith? number levels text = some (document, rest) := by
  cases levels with
  | zero =>
      rw [readWith?]
      · exact h
      · simp
      · simp
  | succ levels =>
      rw [readWith?]
      · exact h
      · rintro _ s - rfl
        simp [readScalar?, hnumber s] at h
      · rintro _ s - rfl
        simp [readScalar?, hnumber s] at h

theorem reads_container {part : Document → List Char → Prop}
    (h : Reads part (readWith? number levels) Document.settled) :
    Reads (ContainerText part) (readWith? number (levels + 1)) Document.settled := by
  intro document s hcontainer rest hrest
  cases hcontainer with
  | array hitems =>
      obtain ⟨text, heq, hcases⟩ := hitems.readItems h (.inl rfl) rest
      rw [heq]
      refine ⟨?_, rfl⟩
      rcases hcases with ⟨rfl, hskip⟩ | ⟨hgap, hread⟩
      · rw [readWith?, hskip]
        rfl
      · rw [readWith?_array hgap, hread, Option.map_some, Document.settled_array]
  | object hmembers =>
      obtain ⟨text, heq, hcases⟩ := hmembers.readItems (reads_member h) (.inr rfl) rest
      rw [heq]
      refine ⟨?_, rfl⟩
      rcases hcases with ⟨rfl, hskip⟩ | ⟨hgap, hread⟩
      · rw [readWith?, hskip]
        rfl
      · rw [readWith?_object hgap, hread, Option.map_some, Document.settled_object]

theorem reads_textOf (hnumber : RefusesBrackets number) {scalar : Document → List Char → Prop}
    (hscalar : Reads scalar (readScalar? number) Document.settled) (levels : Nat) :
    Reads (TextOf scalar levels) (readWith? number levels) Document.settled := by
  have hscalars (levels : Nat) : Reads scalar (readWith? number levels) Document.settled := by
    intro document s hs rest hrest
    obtain ⟨hread, hgap⟩ := hscalar document s hs rest hrest
    exact ⟨readWith?_of_readScalar? hnumber hread, hgap⟩
  induction levels with
  | zero => exact hscalars 0
  | succ levels ih =>
      rintro document s (hs | hcontainer) rest hrest
      · exact hscalars (levels + 1) _ _ hs _ hrest
      · exact reads_container ih _ _ hcontainer _ hrest

end Number

theorem isGap_of_head {c : Char} (hc : c = '-' ∨ c.isDigit = true) : isGap c = false := by
  rw [Bool.eq_false_iff]
  intro hgap
  simp only [isGap, isBlank, Bool.or_eq_true, decide_eq_true_eq] at hgap
  rcases hgap with ((((rfl | rfl) | rfl) | rfl) | rfl) | rfl <;> revert hc <;> decide

theorem readScalar?_of_head {number : List Char → Option (Binary64 × List Char)} {c : Char}
    {text : List Char} (hc : c = '-' ∨ c.isDigit = true) :
    readScalar? number (c :: text) =
      (number (c :: text)).map fun (x, rest) => (.number x, rest) := by
  rw [readScalar?]
  all_goals
    intro rest heq
    obtain ⟨rfl, -⟩ := List.cons.inj heq
    revert hc
    decide

theorem reads_scalar : Reads ScalarText (readScalar? readNumber?) Document.settled := by
  intro document s hscalar rest hrest
  cases hscalar with
  | null => exact ⟨rfl, rfl⟩
  | true => exact ⟨rfl, rfl⟩
  | false => exact ⟨rfl, rfl⟩
  | number hread =>
      obtain ⟨c, t, rfl, hc⟩ := head_of_readNumber? hread
      refine ⟨?_, isGap_of_head hc⟩
      rw [List.cons_append, readScalar?_of_head hc, ← List.cons_append,
        readNumber?_append hread hrest, Option.map_some, Document.settled]
      rfl
  | string hstring =>
      obtain ⟨body, hbody, rfl⟩ := hstring
      have hsplit : '"' :: (body ++ ['"']) ++ rest = '"' :: (body ++ '"' :: rest) := by simp
      rw [hsplit]
      refine ⟨?_, rfl⟩
      rw [readScalar?, readQuoted?_of_stringBody hbody, Option.map_some]
      simp [Document.settled]

theorem reads_document (levels : Nat) :
    Reads (DocumentText levels) (readValue? levels) Document.settled := by
  rw [← textOf_scalarText, ← readWith?_readNumber?]
  exact reads_textOf refusesBrackets_readNumber? reads_scalar levels

/-- The document between the blanks of a text is read, once repeated names are settled. -/
theorem bind_read_of_reads {α : Type} {item : α → List Char → Prop}
    {read : List Char → Option (Document × List Char)} {meaning : α → Document}
    (h : Reads item read meaning) {before s after : List Char} {a : α} (hbefore : Blanks before)
    (hs : item a s) (hafter : Blanks after) :
    ((read (skipBlanks (before ++ s ++ after))).bind fun (document, rest) =>
      if (skipBlanks rest).isEmpty then some document else none) = some (meaning a) := by
  have hrest : Stops isNumeral after := by
    simpa using stops_isNumeral_blanks hafter stops_nil
  obtain ⟨hread, hgap⟩ := h _ _ hs _ hrest
  have hend : skipBlanks after = [] := by
    simpa using skipBlanks_append hafter stops_nil
  rw [List.append_assoc, skipBlanks_append hbefore (stops_isBlank hgap), hread, Option.bind_some]
  simp [hend]

/-- A text is read to the document that it holds, once repeated names are settled. -/
theorem read?_of_holds {text : String} {document : Document} (h : Holds text document) :
    Document.read? text = some document.settled := by
  obtain ⟨before, s, after, htext, hbefore, hs, hafter⟩ := h
  rw [Document.read?, htext]
  exact bind_read_of_reads (reads_document maxDepth) hbefore hs hafter

/-! ### What is read is settled

The reader inserts the members of an object one after another, so no object that it
gives repeats a name. -/

section Items

variable {α β : Type} {read : List Char → Option (β × List Char)} {close : Char}
  {text rest : List Char}

theorem exists_read_of_mem_items {items : List β}
    (h : readItems? close read text = some (items, rest)) {b : β} (hb : b ∈ items) :
    ∃ s tail, read s = some (b, tail) := by
  induction hn : text.length using Nat.strongRecOn generalizing text items rest with
  | ind n ih =>
      subst hn
      rw [readItems?] at h
      split at h
      · simp at h
      · rename_i first tail hfirst
        split at h
        · simp at h
        · rename_i c tail' htail
          split at h
          · obtain ⟨rfl, rfl⟩ := Prod.mk.inj (Option.some.inj h)
            rw [List.mem_singleton.mp hb]
            exact ⟨_, _, hfirst⟩
          · obtain ⟨⟨-, hlength⟩, h⟩ := Option.ite_none_right_eq_some.mp h
            obtain ⟨⟨others, rest'⟩, hothers, heq⟩ := Option.map_eq_some_iff.mp h
            obtain ⟨rfl, rfl⟩ := Prod.mk.inj heq
            rcases List.mem_cons.mp hb with rfl | hb
            · exact ⟨_, _, hfirst⟩
            · exact ih _ hlength hothers hb rfl

theorem exists_read_of_readMember? {member : String × β}
    (h : readMember? read text = some (member, rest)) :
    ∃ s tail, read s = some (member.2, tail) := by
  unfold readMember? at h
  split at h
  · obtain ⟨⟨name, tail⟩, -, h⟩ := Option.bind_eq_some_iff.mp h
    dsimp only at h
    split at h
    · obtain ⟨⟨v, tail'⟩, hread, heq⟩ := Option.map_eq_some_iff.mp h
      obtain ⟨rfl, rfl⟩ := Prod.mk.inj heq
      exact ⟨_, _, hread⟩
    · simp at h
  · simp at h

end Items

theorem settled_of_readScalar? {number : List Char → Option (Binary64 × List Char)}
    {text rest : List Char} {document : Document}
    (h : readScalar? number text = some (document, rest)) : document.settled = document := by
  unfold readScalar? at h
  split at h
  · obtain ⟨rfl, -⟩ := Prod.mk.inj (Option.some.inj h)
    rfl
  · obtain ⟨rfl, -⟩ := Prod.mk.inj (Option.some.inj h)
    rfl
  · obtain ⟨rfl, -⟩ := Prod.mk.inj (Option.some.inj h)
    rfl
  · obtain ⟨contents, -, heq⟩ := Option.map_eq_some_iff.mp h
    obtain ⟨rfl, -⟩ := Prod.mk.inj heq
    rfl
  · obtain ⟨x, -, heq⟩ := Option.map_eq_some_iff.mp h
    obtain ⟨rfl, -⟩ := Prod.mk.inj heq
    rfl

theorem settled_of_readWith? {number : List Char → Option (Binary64 × List Char)} {levels : Nat}
    {text rest : List Char} {document : Document}
    (h : readWith? number levels text = some (document, rest)) :
    document.settled = document := by
  induction levels generalizing text rest document with
  | zero => 
      rw [readWith?] at h
      · exact settled_of_readScalar? h
      · simp
      · simp
  | succ levels ih =>
      rw [readWith?.eq_def] at h
      split at h
      -- An array, an object, and what is neither.
      · rename_i heq
        obtain rfl := Nat.succ.inj heq
        split at h
        · obtain ⟨rfl, -⟩ := Prod.mk.inj (Option.some.inj h)
          rfl
        · obtain ⟨⟨items, tail⟩, hitems, heq⟩ := Option.map_eq_some_iff.mp h
          obtain ⟨rfl, -⟩ := Prod.mk.inj heq
          refine Document.settled_array_of_forall fun item hitem => ?_
          obtain ⟨s, tail, hread⟩ := exists_read_of_mem_items hitems hitem
          exact ih hread
      · rename_i heq
        obtain rfl := Nat.succ.inj heq
        split at h
        · obtain ⟨rfl, -⟩ := Prod.mk.inj (Option.some.inj h)
          rfl
        · obtain ⟨⟨members, tail⟩, hmembers, heq⟩ := Option.map_eq_some_iff.mp h
          obtain ⟨rfl, -⟩ := Prod.mk.inj heq
          refine Document.settled_object_ofPairs fun member hmember => ?_
          obtain ⟨s, tail, hread⟩ := exists_read_of_mem_items hmembers hmember
          obtain ⟨s', tail', hvalue⟩ := exists_read_of_readMember? hread
          exact ih hvalue
      · exact settled_of_readScalar? h

/-- No object of a document that is read repeats a name. -/
theorem settled_of_read? {text : String} {document : Document}
    (h : Document.read? text = some document) : document.settled = document := by
  obtain ⟨⟨read, rest⟩, hread, h⟩ := Option.bind_eq_some_iff.mp h
  obtain ⟨-, heq⟩ := Option.ite_none_right_eq_some.mp h
  obtain rfl := Option.some.inj heq
  rw [← readWith?_readNumber?] at hread
  exact settled_of_readWith? hread

end TableQuery.Json
