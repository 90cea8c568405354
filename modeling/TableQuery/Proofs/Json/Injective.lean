import TableQuery.Proofs.Json.Rereading

/-!
The text of a document tells the document. Where one text goes on after the other, both
documents end at the same place and show the same: scalars because an exact reader
takes them off the text, containers because their items do and the commas and brackets
between them cannot be mistaken. Only the numbers that the format merges, the two zeros
and those that are not finite, are not told apart.
-/

namespace TableQuery.Json

open Text (Stops stops_nil)

variable {layout : Layout} {depth : Nat} {rest : List Char}

section Enclosed

variable {α β : Type} {opening close : Char} {before after : List Char} {text : α → List Char}
  {key : α → β}

/-- The text of items between brackets, the way a layout breaks it into lines. -/
def enclosed (opening close : Char) (before after : List Char) (text : α → List Char) :
    List α → List Char
  | [] => [opening, close]
  | a :: as =>
    opening :: (before ++ text a ++ as.flatMap (fun b => ',' :: (before ++ text b)) ++ after ++
      [close])

/-- The text of `a` tells its key and its end, whatever follows. -/
def Tells (text : α → List Char) (key : α → β) (a : α) : Prop :=
  ∀ (b : α) (rest rest' : List Char), Stops isNumeral rest → Stops isNumeral rest' →
    text a ++ rest = text b ++ rest' → key a = key b ∧ rest = rest'

def IsClosing (close : Char) : Prop :=
  close = ']' ∨ close = '\x7d'

theorem stops_close (hclose : IsClosing close) (hafter : Blanks after) (rest : List Char) :
    Stops isNumeral (after ++ close :: rest) := by
  refine stops_isNumeral_blanks hafter ?_
  rcases hclose with rfl | rfl <;> rfl

theorem stops_items (hclose : IsClosing close) (hafter : Blanks after) (as : List α)
    (rest : List Char) :
    Stops isNumeral
      (as.flatMap (fun b => ',' :: (before ++ text b)) ++ (after ++ close :: rest)) := by
  cases as with
  | nil => exact stops_close hclose hafter rest
  | cons a as => rfl

theorem close_ne_comma (hclose : IsClosing close) (hafter : Blanks after) (rest s : List Char) :
    after ++ close :: rest ≠ ',' :: s := by
  intro heq
  cases after with
  | nil =>
      obtain ⟨rfl, -⟩ := List.cons.inj heq
      rcases hclose with h | h <;> simp at h
  | cons c after =>
      obtain ⟨rfl, -⟩ := List.cons.inj heq
      have hblank := hafter ',' (by simp)
      simp [isBlank] at hblank

theorem close_ne_item (hclose : IsClosing close) (hbefore : Blanks before) {s : List Char}
    (hs : Stops isGap s) (rest : List Char) : close :: rest ≠ before ++ s := by
  intro heq
  cases before with
  | nil =>
      rw [List.nil_append] at heq
      rw [← heq] at hs
      rcases hclose with rfl | rfl <;> simp [isGap] at hs
  | cons c before =>
      obtain ⟨rfl, -⟩ := List.cons.inj heq
      have hblank := hbefore close (by simp)
      rcases hclose with rfl | rfl <;> simp [isBlank] at hblank

theorem tells_items (hclose : IsClosing close) (hafter : Blanks after) {as : List α}
    (h : ∀ a ∈ as, Tells text key a) :
    ∀ (bs : List α) (rest rest' : List Char),
      as.flatMap (fun b => ',' :: (before ++ text b)) ++ (after ++ close :: rest) =
          bs.flatMap (fun b => ',' :: (before ++ text b)) ++ (after ++ close :: rest') →
        as.map key = bs.map key ∧ rest = rest' := by
  induction as with
  | nil =>
      intro bs rest rest' heq
      cases bs with
      | nil =>
          obtain ⟨-, hrest⟩ := List.cons.inj (List.append_cancel_left heq)
          exact ⟨rfl, hrest⟩
      | cons b bs => exact absurd heq (close_ne_comma hclose hafter rest _)
  | cons a as ih =>
      intro bs rest rest' heq
      cases bs with
      | nil => exact absurd heq.symm (close_ne_comma hclose hafter rest' _)
      | cons b bs =>
          simp only [List.flatMap_cons, List.cons_append, List.append_assoc, List.cons.injEq,
            true_and] at heq
          obtain ⟨hkey, htail⟩ := h a (by simp) b _ _ (stops_items hclose hafter as rest)
            (stops_items hclose hafter bs rest') (List.append_cancel_left heq)
          obtain ⟨hkeys, hrest⟩ := ih (fun c hc => h c (List.mem_cons_of_mem a hc)) bs _ _ htail
          rw [List.map_cons, List.map_cons, hkey, hkeys]
          exact ⟨rfl, hrest⟩

/-- The items of a container tell what the whole of it shows. -/
theorem tells_enclosed (hclose : IsClosing close) (hbefore : Blanks before)
    (hafter : Blanks after) (hgap : ∀ (b : α) (rest : List Char), Stops isGap (text b ++ rest))
    {as : List α} (h : ∀ a ∈ as, Tells text key a) :
    ∀ (bs : List α) (rest rest' : List Char),
      enclosed opening close before after text as ++ rest =
          enclosed opening close before after text bs ++ rest' →
        as.map key = bs.map key ∧ rest = rest' := by
  intro bs rest rest' heq
  cases as with
  | nil =>
      cases bs with
      | nil =>
          simp only [enclosed, List.cons_append, List.nil_append, List.cons.injEq, true_and] at heq
          exact ⟨rfl, heq⟩
      | cons b bs =>
          simp only [enclosed, List.cons_append, List.nil_append, List.append_assoc,
            List.cons.injEq, true_and] at heq
          exact absurd heq (close_ne_item hclose hbefore (hgap b _) rest)
  | cons a as =>
      cases bs with
      | nil =>
          simp only [enclosed, List.cons_append, List.nil_append, List.append_assoc,
            List.cons.injEq, true_and] at heq
          exact absurd heq.symm (close_ne_item hclose hbefore (hgap a _) rest')
      | cons b bs =>
          -- With a comma in front the first item stands like all others.
          have hitems : (a :: as).flatMap (fun c => ',' :: (before ++ text c)) ++
                (after ++ close :: rest) =
              (b :: bs).flatMap (fun c => ',' :: (before ++ text c)) ++
                (after ++ close :: rest') := by
            simpa [enclosed] using heq
          exact tells_items hclose hafter h (b :: bs) rest rest' hitems

end Enclosed

theorem write_array (items : List Document) :
    write layout depth (.array items) =
      enclosed '[' ']' (layout.newline (depth + 1)) (layout.newline depth)
        (write layout (depth + 1)) items := by
  cases items with
  | nil => rfl
  | cons item items =>
      have hitems : writeItems layout (depth + 1) (items.map id) = _ := writeItems_map items
      rw [List.map_id] at hitems
      rw [write, enclosed, hitems]
      rfl

/-- The text of a member with the name and the value paired. -/
def memberOf (layout : Layout) (depth : Nat) (member : String × Document) : List Char :=
  memberText layout depth member.1 member.2

theorem write_object (members : List (String × Document)) :
    write layout depth (.object members) =
      enclosed '{' '}' (layout.newline (depth + 1)) (layout.newline depth)
        (memberOf layout (depth + 1)) members := by
  cases members with
  | nil => rfl
  | cons member members =>
      have hmembers := @writeMembers_map Document layout (depth + 1) id members
      simp only [id, Prod.mk.eta, List.map_id_fun'] at hmembers
      rw [write, enclosed, hmembers]
      simp [memberOf, memberText]

theorem stops_isGap_write (layout : Layout) (depth : Nat) (document : Document)
    (rest : List Char) : Stops isGap (write layout depth document ++ rest) := by
  cases document with
  | null | boolean _ | number _ | string _ => exact stops_isGap_scalar rfl rest
  | array items =>
      rw [write_array]
      cases items <;> rfl
  | object members =>
      rw [write_object]
      cases members <;> rfl

theorem stops_isGap_memberOf (layout : Layout) (depth : Nat) (member : String × Document)
    (rest : List Char) : Stops isGap (memberOf layout depth member ++ rest) :=
  rfl

theorem readScalar?_container {document : Document} (h : isContainer document = true)
    (rest : List Char) : readScalar? readNearest? (write layout depth document ++ rest) = none := by
  cases document with
  | null | boolean _ | number _ | string _ => simp [isContainer] at h
  | array items =>
      rw [write_array]
      cases items <;> simp [enclosed, readScalar?, refusesBrackets_readNearest? _]
  | object members =>
      rw [write_object]
      cases members <;> simp [enclosed, readScalar?, refusesBrackets_readNearest? _]

theorem isContainer_eq {document other : Document} {rest' : List Char}
    (hrest : Stops isNumeral rest) (hrest' : Stops isNumeral rest')
    (h : write layout depth document ++ rest = write layout depth other ++ rest') :
    isContainer document = isContainer other := by
  have hnone (document : Document) {rest : List Char} (hrest : Stops isNumeral rest) :
      (readScalar? readNearest? (write layout depth document ++ rest)).isNone =
        isContainer document := by
    cases hdocument : isContainer document with
    | false => rw [readScalar?_write hdocument hrest, Option.isNone_some]
    | true => rw [readScalar?_container hdocument, Option.isNone_none]
  rw [← hnone document hrest, h, hnone other hrest']

/-! ### Documents -/

theorem tells_scalar {document : Document} (h : isContainer document = false) :
    Tells (write layout depth) (Document.mapNumbers shown) document := by
  intro other rest rest' hrest hrest' heq
  have hother := isContainer_eq hrest hrest' heq
  rw [h] at hother
  have hread : readScalar? readNearest? (write layout depth document ++ rest) = _ :=
    readScalar?_write h hrest
  rw [heq, readScalar?_write hother.symm hrest'] at hread
  obtain ⟨hkey, hend⟩ := Prod.mk.inj (Option.some.inj hread)
  exact ⟨hkey.symm, hend.symm⟩

theorem tells_memberOf {member : String × Document}
    (h : Tells (write layout depth) (Document.mapNumbers shown) member.2) :
    Tells (memberOf layout depth) (fun (name, value) => (name, value.mapNumbers shown)) member := by
  intro other rest rest' hrest hrest' heq
  simp only [memberOf, memberText, List.append_assoc] at heq
  obtain ⟨text, htext, hread⟩ := readQuoted?_quote member.1.toList
    (layout.colon ++ (write layout depth member.2 ++ rest))
  obtain ⟨text', htext', hread'⟩ := readQuoted?_quote other.1.toList
    (layout.colon ++ (write layout depth other.2 ++ rest'))
  rw [htext, htext', List.cons.injEq] at heq
  rw [heq.2, hread'] at hread
  obtain ⟨hname, hvalue⟩ := Prod.mk.inj (Option.some.inj hread)
  obtain ⟨hkey, hend⟩ := h other.2 rest rest' hrest hrest' (List.append_cancel_left hvalue).symm
  exact ⟨Prod.ext (String.toList_inj.mp hname.symm) hkey, hend⟩

theorem tells_array (hlayout : layout.Neutral) {items : List Document}
    (h : ∀ item ∈ items, Tells (write layout (depth + 1)) (Document.mapNumbers shown) item) :
    Tells (write layout depth) (Document.mapNumbers shown) (.array items) := by
  intro other rest rest' hrest hrest' heq
  have hother := isContainer_eq hrest hrest' heq
  cases other with
  | null | boolean _ | number _ | string _ => simp [isContainer] at hother
  | object members =>
      rw [write_array, write_object] at heq
      cases items <;> cases members <;> simp [enclosed] at heq
  | array others =>
      rw [write_array, write_array] at heq
      obtain ⟨hkeys, hend⟩ := tells_enclosed (.inl rfl) (hlayout.newline (depth + 1))
        (hlayout.newline depth) (stops_isGap_write layout (depth + 1)) h others rest rest' heq
      rw [Document.mapNumbers_array, Document.mapNumbers_array, hkeys]
      exact ⟨rfl, hend⟩

theorem tells_object (hlayout : layout.Neutral) {members : List (String × Document)}
    (h : ∀ member ∈ members,
      Tells (write layout (depth + 1)) (Document.mapNumbers shown) member.2) :
    Tells (write layout depth) (Document.mapNumbers shown) (.object members) := by
  intro other rest rest' hrest hrest' heq
  have hother := isContainer_eq hrest hrest' heq
  cases other with
  | null | boolean _ | number _ | string _ => simp [isContainer] at hother
  | array items =>
      rw [write_array, write_object] at heq
      cases items <;> cases members <;> simp [enclosed] at heq
  | object others =>
      rw [write_object, write_object] at heq
      obtain ⟨hkeys, hend⟩ := tells_enclosed (.inr rfl) (hlayout.newline (depth + 1))
        (hlayout.newline depth) (stops_isGap_memberOf layout (depth + 1))
        (fun member hmember => tells_memberOf (h member hmember)) others rest rest' heq
      rw [Document.mapNumbers_object, Document.mapNumbers_object, hkeys]
      exact ⟨rfl, hend⟩

/-- The text of a document tells what it shows. -/
theorem tells_write (hlayout : layout.Neutral) (levels : Nat) :
    ∀ (document : Document) (depth : Nat), document.NestsWithin levels →
      Tells (write layout depth) (Document.mapNumbers shown) document := by
  induction levels with
  | zero =>
      intro document depth hnests
      cases document with
      | array _ | object _ => exact hnests.elim
      | null | boolean _ | number _ | string _ => exact tells_scalar rfl
  | succ levels ih =>
      intro document depth hnests
      cases document with
      | null | boolean _ | number _ | string _ => exact tells_scalar rfl
      | array items =>
          exact tells_array hlayout fun item hitem => ih item (depth + 1) (hnests item hitem)
      | object members =>
          exact tells_object hlayout
            fun member hmember => ih member.2 (depth + 1) (hnests member hmember)

theorem mapNumbers_shown_of_render {document other : Document}
    (h : document.NestsWithin maxDepth) {isPretty : Bool}
    (hrender : document.render (.ofPretty isPretty) = other.render (.ofPretty isPretty)) :
    document.mapNumbers shown = other.mapNumbers shown := by
  refine (tells_write (neutral_ofPretty isPretty) maxDepth document 0 h other [] [] stops_nil
    stops_nil ?_).1
  rw [List.append_nil, List.append_nil]
  exact String.ofList_injective hrender

end TableQuery.Json
