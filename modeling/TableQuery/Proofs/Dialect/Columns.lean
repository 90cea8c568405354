import TableQuery.Proofs.Dialect.Operands

/-!
What the rule for the columns of a query takes. A list goes on for as long as a
comma and a column follow, so it is ended by anything that does not bring a
comma after its blanks.
-/

namespace TableQuery.Dialect

open Text Pattern Regex

variable {text rest : List Char} {v : Phrase}

def comma : Pattern Phrase :=
  .seq [optionalWs, .literal ",", optionalWs]

theorem run_comma {before after : List Char} (hbefore : Blanks before) (hafter : Blanks after)
    (hrest : Stops isSpace rest) :
    ∃ v, comma.run (before ++ ',' :: (after ++ rest)) = some (v, rest) := by
  have hmid : Stops isSpace (',' :: (after ++ rest)) := by
    rw [stops_cons]
    decide
  obtain ⟨v, hv⟩ := run_optionalWs_append hbefore hmid
  obtain ⟨w, hw⟩ := run_optionalWs_append hafter hrest
  have hliteral := run_literal (α := Phrase) "," (after ++ rest)
  exact ⟨_, run_seq (runSeq_cons hv (runSeq_cons hliteral (runSeq_cons hw runSeq_nil)))⟩

theorem exists_of_run_comma (h : comma.run text = some (v, rest)) :
    ∃ before after, Blanks before ∧ Blanks after ∧ text = before ++ ',' :: (after ++ rest) := by
  rw [comma, run_seq_eq_some_iff] at h
  simp only [runSeq_cons_eq_some_iff, runSeq_nil_eq_some_iff, run_literal_eq_some_iff] at h
  obtain ⟨_, rfl, _, _, _, rfl, hws, _, _, _, rfl, ⟨rfl, rfl⟩, _, _, _, rfl, hws', rfl, rfl⟩ := h
  obtain ⟨before, hbefore, -, rfl⟩ := exists_of_run_optionalWs hws
  obtain ⟨after, hafter, -, rfl⟩ := exists_of_run_optionalWs hws'
  exact ⟨before, after, hbefore, hafter, rfl⟩

/-- No comma follows the blanks, if any. -/
def EndsList (rest : List Char) : Prop :=
  ∀ before tail, Blanks before → rest ≠ before ++ ',' :: tail

def nextField : List Char → Option (Phrase × List Char) :=
  nextElement fieldRef (some comma)

theorem nextField_eq_none (h : EndsList rest) : nextField rest = none := by
  rw [Option.eq_none_iff_forall_ne_some]
  rintro ⟨v, tail⟩ hnext
  obtain ⟨_, mid, hcomma, -⟩ := nextElement_eq_some_iff.mp hnext
  obtain ⟨before, after, hbefore, -, htext⟩ := exists_of_run_comma hcomma
  exact h before _ hbefore htext

theorem stops_furtherFields {fields : List FieldRef} {s : List Char}
    (hs : FurtherFields fields s) (hrest : Stops isWord rest) : Stops isWord (s ++ rest) := by
  cases hs with
  | nil => exact hrest
  | @cons field fields before after s hbefore hafter hs =>
      rw [List.append_assoc]
      refine stops_append (fun c hc => isWord_of_isSpace (hbefore c hc)) ?_
      exact (by decide : isWord ',' = false)

theorem stops_field {field : FieldRef} (hnames : ∀ name ∈ field.names, IsName name)
    (rest : List Char) : Stops isSpace (field.text ++ rest) :=
  stops_operand (.field field) hnames rest

theorem chain_nextField {fields : List FieldRef} {s : List Char} (hs : FurtherFields fields s)
    (hnames : ∀ name ∈ fields.flatMap FieldRef.names, IsName name) (hrest : Stops isWord rest)
    (hend : EndsList rest) :
    chain nextField (s ++ rest) = (fields.map .field, rest) := by
  induction hs with
  | nil => rw [List.nil_append, chain_of_none (nextField_eq_none hend), List.map_nil]
  | @cons field fields before after s hbefore hafter hs ih =>
      rw [List.flatMap_cons] at hnames
      obtain ⟨hnamesField, hnamesFields⟩ := List.forall_mem_append.mp hnames
      have hnext : nextField (before ++ ',' :: (after ++ (field.text ++ (s ++ rest)))) =
          some (.field field, s ++ rest) := by
        obtain ⟨v, hv⟩ := run_comma hbefore hafter (stops_field hnamesField (s ++ rest))
        exact nextElement_eq_some_iff.mpr
          ⟨v, _, hv, run_fieldRef hnamesField (stops_furtherFields hs hrest)⟩
      have htext : before ++ ',' :: (after ++ field.text ++ s) ++ rest =
          before ++ ',' :: (after ++ (field.text ++ (s ++ rest))) := by simp
      have hlt : (s ++ rest).length <
          (before ++ ',' :: (after ++ (field.text ++ (s ++ rest)))).length := by
        simp only [List.length_append, List.length_cons]
        omega
      rw [htext, chain_of_some hnext hlt, ih hnamesFields]
      rfl

theorem exists_of_chain_nextField (text : List Char) :
    ∃ (fields : List FieldRef) (s : List Char), FurtherFields fields s ∧
      (∀ name ∈ fields.flatMap FieldRef.names, IsName name) ∧
      text = s ++ (chain nextField text).2 ∧ (chain nextField text).1 = fields.map .field := by
  refine chain_induction (motive := fun text vs rest => ∃ (fields : List FieldRef)
    (s : List Char), FurtherFields fields s ∧
      (∀ name ∈ fields.flatMap FieldRef.names, IsName name) ∧ text = s ++ rest ∧
      vs = fields.map Phrase.field) ?_ ?_ text
  · intro text
    exact ⟨[], [], .nil, by simp, rfl, rfl⟩
  · rintro text v mid vs rest hnext ⟨fields, s, hs, hnames, rfl, rfl⟩
    obtain ⟨_, _, hcomma, hfield⟩ := nextElement_eq_some_iff.mp hnext
    obtain ⟨before, after, hbefore, hafter, rfl⟩ := exists_of_run_comma hcomma
    obtain ⟨field, hnamesField, -, rfl, rfl⟩ := run_fieldRef_eq_some_iff.mp hfield
    refine ⟨field :: fields, _, .cons hbefore hafter hs, ?_, ?_, rfl⟩
    · rw [List.flatMap_cons]
      exact List.forall_mem_append.mpr ⟨hnamesField, hnames⟩
    · simp

theorem toFieldList?_list (fields : List FieldRef) :
    Phrase.toFieldList? (Capture.list (fields.map Phrase.field)) =
      some (.fields (.fields fields)) := by
  have hmap : (fields.map Phrase.field).mapM Phrase.field? = some fields := by
    induction fields with
    | nil => rfl
    | cons field fields ih => simp [Phrase.field?, ih]
  change Option.map _ ((fields.map Phrase.field).mapM Phrase.field?) = _
  rw [hmap, Option.map_some]

theorem length_lt_of_field {field : FieldRef} (hnames : ∀ name ∈ field.names, IsName name)
    (rest : List Char) : rest.length < (field.text ++ rest).length := by
  obtain ⟨c, text, htext, -⟩ := exists_text_eq hnames
  rw [List.length_append, htext, List.length_cons]
  omega

theorem run_fieldList {fields : FieldList} {s : List Char} (hs : fields.Spelled s)
    (hnames : ∀ name ∈ fields.names, IsName name) (hrest : Stops isWord rest)
    (hend : EndsList rest) : fieldList.run (s ++ rest) = some (.fields fields, rest) := by
  simp only [fieldList, run_any_cons, run_any_nil, Option.or_none]
  cases hs with
  | wildcard =>
      have hstar := run_literal (α := Phrase) "*" rest
      have hwildcard : (filterMap (literal "*") Phrase.toWildcard?).run ('*' :: rest) =
          some (.fields .wildcard, rest) := run_filterMap_eq_some_iff.mpr ⟨_, hstar, rfl⟩
      rw [List.singleton_append, hwildcard, Option.some_or]
  | @fields field fields s hs =>
      obtain ⟨hnamesField, hnamesFields⟩ : (∀ name ∈ field.names, IsName name) ∧
          ∀ name ∈ fields.flatMap FieldRef.names, IsName name := List.forall_mem_append.mp hnames
      have hwildcard : (filterMap (literal "*") Phrase.toWildcard?).run
          (field.text ++ (s ++ rest)) = none := by
        rw [Option.eq_none_iff_forall_ne_some]
        rintro ⟨v, tail⟩ h
        obtain ⟨_, h, -⟩ := run_filterMap_eq_some_iff.mp h
        obtain ⟨c, text, htext, hc, -⟩ := exists_text_eq hnamesField
        rw [run_literal_eq_some_iff, htext, List.cons_append] at h
        obtain rfl : c = '*' := (List.cons.inj h.1).1
        exact absurd hc (by decide)
      have hfield := run_fieldRef hnamesField (stops_furtherFields hs hrest)
      have hchain := chain_nextField hs hnamesFields hrest hend
      rw [nextField] at hchain
      have hrep : (Pattern.rep fieldRef (some comma)).run (field.text ++ (s ++ rest)) =
          some (Capture.list ((field :: fields).map Phrase.field), rest) := by
        refine run_rep_eq_some_iff.mpr ⟨_, _, hfield, length_lt_of_field hnamesField _, ?_, ?_⟩
        · rw [hchain, List.map_cons]
        · rw [hchain]
      rw [List.append_assoc, hwildcard, Option.none_or]
      exact run_filterMap_eq_some_iff.mpr ⟨_, hrep, toFieldList?_list (field :: fields)⟩

theorem exists_of_run_fieldList (h : fieldList.run text = some (v, rest)) :
    ∃ (fields : FieldList) (s : List Char), fields.Spelled s ∧ fields ≠ .fields [] ∧
      (∀ name ∈ fields.names, IsName name) ∧ text = s ++ rest ∧ v = .fields fields := by
  simp only [fieldList, run_any_cons, run_any_nil, Option.or_none, Option.or_eq_some_iff] at h
  rcases h with h | ⟨-, h⟩
  · obtain ⟨w, h, hv⟩ := run_filterMap_eq_some_iff.mp h
    obtain ⟨rfl, -⟩ := run_literal_eq_some_iff.mp h
    exact ⟨.wildcard, ['*'], .wildcard, by simp, by simp [FieldList.names], rfl,
      (Option.some.inj hv).symm⟩
  · obtain ⟨w, h, hv⟩ := run_filterMap_eq_some_iff.mp h
    obtain ⟨_, mid, hfield, -, rfl, hrest⟩ := run_rep_eq_some_iff.mp h
    obtain ⟨field, hnamesField, -, rfl, rfl⟩ := run_fieldRef_eq_some_iff.mp hfield
    obtain ⟨fields, s, hs, hnames, htext, hvs⟩ := exists_of_chain_nextField mid
    change rest = (chain nextField mid).2 at hrest
    change Phrase.toFieldList? (Capture.list (_ :: (chain nextField mid).1)) = _ at hv
    rw [hvs, ← List.map_cons, toFieldList?_list, Option.some.injEq] at hv
    refine ⟨.fields (field :: fields), _, .fields hs, by simp,
      List.forall_mem_append.mpr ⟨hnamesField, hnames⟩, ?_, hv.symm⟩
    rw [List.append_assoc, hrest, ← htext]

theorem stops_fieldList {fields : FieldList} {s : List Char} (hs : fields.Spelled s)
    (hnames : ∀ name ∈ fields.names, IsName name) (rest : List Char) :
    Stops isSpace (s ++ rest) := by
  cases hs with
  | wildcard => exact (by decide : isSpace '*' = false)
  | @fields field fields s hs =>
      rw [List.append_assoc]
      exact stops_field (List.forall_mem_append.mp hnames).1 _

end TableQuery.Dialect
