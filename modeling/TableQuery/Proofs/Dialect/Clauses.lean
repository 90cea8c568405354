import TableQuery.Proofs.Dialect.Columns

/-!
What the rules for clauses take. A clause takes the blanks after it, too, so
where it leaves off no blank follows; what follows a clause must not go on with
the name that ends it.
-/

namespace TableQuery.Dialect

open Text Pattern Regex

variable {text rest s : List Char} {v : Phrase}

theorem stops_keyword {word : String} (hs : FoldsTo word s)
    (hword : IsKeyword word) (rest : List Char) :
    Stops isSpace (s ++ rest) := by
  obtain ⟨c, tail, rfl, hc, -⟩ := exists_head_of_foldsTo hs hword
  exact isSpace_of_isWord hc

theorem stops_name {name : String} (h : IsName name) (rest : List Char) :
    Stops isSpace (name.toList ++ rest) := by
  obtain ⟨c, tail, htext⟩ := List.exists_cons_of_ne_nil h.1
  rw [htext]
  exact isSpace_of_isWord (h.2 c (by simp [htext]))

theorem stops_gap {gap : List Char} (hgap : Gap gap) (rest : List Char) :
    Stops isWord (gap ++ rest) := by
  obtain ⟨c, tail, rfl⟩ := List.exists_cons_of_ne_nil hgap.1
  exact isWord_of_isSpace (hgap.2 c (by simp))

/-- After the columns of a query comes a keyword, and so no comma. -/
theorem endsList_of_gap {gap : List Char} {word : String} (hgap : Gap gap) (hs : FoldsTo word s)
    (hword : IsKeyword word) (rest : List Char) :
    EndsList (gap ++ (s ++ rest)) := by
  intro before tail hbefore h
  have hcomma : Stops isSpace (',' :: tail) := by
    rw [stops_cons]
    decide
  obtain ⟨-, htail⟩ := run_unique hgap.2 (stops_keyword hs hword rest) hbefore hcomma h
  obtain ⟨c, tail', rfl, hc, -⟩ := exists_head_of_foldsTo hs hword
  obtain rfl : c = ',' := (List.cons.inj htail).1
  exact absurd hc (by decide)

section Keywords

variable {word : String} {gap : List Char} {parts : List (Pattern Phrase)} {vs : List Phrase}

theorem runSeq_keyword (hs : FoldsTo word s) (hword : IsKeyword word)
    (hgap : Gap gap) (hstops : Stops isSpace text) (h : runSeq parts text = some (vs, rest)) :
    runSeq (keyword word :: ws :: parts) (s ++ (gap ++ text)) =
      some (.text (String.ofList s) :: .text (String.ofList gap) :: vs, rest) := by
  refine runSeq_cons ?_ (runSeq_cons (run_ws hgap hstops) h)
  exact (run_keyword_eq_some_iff hword).mpr ⟨s, hs, rfl, rfl⟩

theorem exists_of_runSeq_keyword (hword : IsKeyword word)
    (h : runSeq (keyword word :: ws :: parts) text = some (vs, rest)) :
    ∃ (s gap mid : List Char) (v w : Phrase) (tail : List Phrase), FoldsTo word s ∧ Gap gap ∧
      text = s ++ (gap ++ mid) ∧ vs = v :: w :: tail ∧ runSeq parts mid = some (tail, rest) := by
  obtain ⟨v, _, _, rfl, hkeyword, h₁⟩ := runSeq_cons_eq_some_iff.mp h
  obtain ⟨w, mid, tail, rfl, hws, h₂⟩ := runSeq_cons_eq_some_iff.mp h₁
  obtain ⟨s, hs, rfl, -⟩ := (run_keyword_eq_some_iff hword).mp hkeyword
  obtain ⟨gap, hgap, -, rfl, -⟩ := run_ws_eq_some_iff.mp hws
  exact ⟨s, gap, mid, v, w, tail, hs, hgap, rfl, rfl, h₂⟩

end Keywords

theorem run_selectClause {select : Select} (hs : select.Spelled .accepted s)
    (hnames : ∀ name ∈ select.fields.names, IsName name) (hsource : IsName select.source)
    (hrest : Stops isWord rest) :
    selectClause.run (s ++ rest) = some (.select select, rest.dropWhile isSpace) := by
  cases hs with
  | @mk fields word₁ gap₁ s gap₂ word₂ gap₃ source hword₁ hgap₁ hs hgap₂ hword₂ hgap₃ =>
      have hkeyword : IsKeyword "FROM" := by decide
      obtain ⟨v, hv⟩ := run_optionalWs rest
      have hfrom := runSeq_keyword hword₂ hkeyword hgap₃ (stops_name hsource rest)
        (runSeq_cons (run_identifier hsource hrest) (runSeq_cons hv runSeq_nil))
      have hgap (tail : List Char) :=
        run_ws hgap₂ (stops_keyword hword₂ hkeyword (gap₃ ++ tail))
      have hfields (tail : List Char) := run_fieldList hs hnames (stops_gap hgap₂ _)
        (endsList_of_gap hgap₂ hword₂ hkeyword (gap₃ ++ tail))
      have hseq := runSeq_keyword hword₁ (by decide) hgap₁ (stops_fieldList hs hnames _)
        (runSeq_cons (hfields _) (runSeq_cons (hgap _) hfrom))
      rw [selectClause]
      simp only [List.append_assoc]
      exact run_filterMap_seq hseq rfl

theorem exists_of_run_selectClause (h : selectClause.run text = some (v, rest)) :
    ∃ (select : Select) (s blanks : List Char), select.Spelled .accepted s ∧
      select.fields ≠ .fields [] ∧ (∀ name ∈ select.fields.names, IsName name) ∧
      IsName select.source ∧ Blanks blanks ∧ Stops isSpace rest ∧ Stops isWord (blanks ++ rest) ∧
      text = s ++ (blanks ++ rest) ∧ v = .select select := by
  rw [selectClause, run_filterMap_seq_eq_some_iff] at h
  obtain ⟨vs, hv, h⟩ := h
  obtain ⟨word₁, gap₁, _, _, _, _, hword₁, hgap₁, rfl, rfl, h₁⟩ :=
    exists_of_runSeq_keyword (by decide) h
  obtain ⟨_, _, _, rfl, hfields, h₂⟩ := runSeq_cons_eq_some_iff.mp h₁
  obtain ⟨_, _, _, rfl, hws, h₃⟩ := runSeq_cons_eq_some_iff.mp h₂
  obtain ⟨word₂, gap₃, _, _, _, _, hword₂, hgap₃, rfl, rfl, h₄⟩ :=
    exists_of_runSeq_keyword (by decide) h₃
  obtain ⟨_, _, _, rfl, hname, h₅⟩ := runSeq_cons_eq_some_iff.mp h₄
  obtain ⟨_, _, _, rfl, hoptional, h₆⟩ := runSeq_cons_eq_some_iff.mp h₅
  obtain ⟨rfl, rfl⟩ := runSeq_nil_eq_some_iff.mp h₆
  obtain ⟨blanks, hblanks, hrest, rfl⟩ := exists_of_run_optionalWs hoptional
  obtain ⟨source, hsource, hstops, rfl, rfl⟩ := run_identifier_eq_some_iff.mp hname
  obtain ⟨gap₂, hgap₂, -, rfl, -⟩ := run_ws_eq_some_iff.mp hws
  obtain ⟨fields, s, hs, hne, hnames, rfl, rfl⟩ := exists_of_run_fieldList hfields
  refine ⟨⟨fields, source⟩, _, blanks, .mk source hword₁ hgap₁ hs hgap₂ hword₂ hgap₃, hne, hnames,
    hsource, hblanks, hrest, hstops, ?_, (Option.some.inj hv).symm⟩
  simp only [List.append_assoc]

theorem forall_mem_join_names {join : Join} {good : String → Prop} :
    (∀ name ∈ join.names, good name) ↔
      good join.table ∧ (∀ name ∈ join.left.names, good name) ∧
        ∀ name ∈ join.right.names, good name := by
  rw [Join.names, List.forall_mem_cons, List.forall_mem_append]

theorem run_fieldEquality {left right : FieldRef} {before after : List Char}
    (hleft : ∀ name ∈ left.names, IsName name) (hright : ∀ name ∈ right.names, IsName name)
    (hbefore : Blanks before) (hafter : Blanks after) (hrest : Stops isWord rest) :
    fieldEquality.run (left.text ++ (before ++ '=' :: (after ++ (right.text ++ rest)))) =
      some (.equality left right, rest) := by
  have hmid (q : Char → Bool) (hq : q '=' = false) :
      Stops q ('=' :: (after ++ (right.text ++ rest))) := hq
  have hstops : Stops isWord (before ++ '=' :: (after ++ (right.text ++ rest))) :=
    stops_append (fun c hc => isWord_of_isSpace (hbefore c hc)) (hmid isWord (by decide))
  obtain ⟨v, hv⟩ := run_optionalWs_append hbefore (hmid isSpace (by decide))
  obtain ⟨w, hw⟩ := run_optionalWs_append hafter (stops_field hright rest)
  have hequal := run_literal (α := Phrase) "=" (after ++ (right.text ++ rest))
  exact run_filterMap_seq (runSeq_cons (run_fieldRef hleft hstops) (runSeq_cons hv
    (runSeq_cons hequal (runSeq_cons hw (runSeq_cons (run_fieldRef hright hrest) runSeq_nil))))) rfl

theorem exists_of_run_fieldEquality (h : fieldEquality.run text = some (v, rest)) :
    ∃ (left right : FieldRef) (before after : List Char), (∀ name ∈ left.names, IsName name) ∧
      (∀ name ∈ right.names, IsName name) ∧ Blanks before ∧ Blanks after ∧ Stops isWord rest ∧
      text = left.text ++ (before ++ '=' :: (after ++ (right.text ++ rest))) ∧
      v = .equality left right := by
  rw [fieldEquality, run_filterMap_seq_eq_some_iff] at h
  simp only [runSeq_cons_eq_some_iff, runSeq_nil_eq_some_iff, run_fieldRef_eq_some_iff,
    run_literal_eq_some_iff] at h
  obtain ⟨vs, hv, _, _, _, rfl, ⟨left, hleft, -, rfl, rfl⟩, _, _, _, rfl, hws, _, _, _, rfl,
    ⟨rfl, rfl⟩, _, _, _, rfl, hws', _, _, _, rfl, ⟨right, hright, hstops, rfl, rfl⟩, rfl, rfl⟩ := h
  obtain ⟨before, hbefore, -, rfl⟩ := exists_of_run_optionalWs hws
  obtain ⟨after, hafter, -, rfl⟩ := exists_of_run_optionalWs hws'
  exact ⟨left, right, before, after, hleft, hright, hbefore, hafter, hstops, rfl,
    (Option.some.inj hv).symm⟩

theorem run_joinClause {join : Join} (hs : join.Spelled .accepted s)
    (hnames : ∀ name ∈ join.names, IsName name) (hrest : Stops isWord rest) :
    joinClause.run (s ++ rest) = some (.join join, rest.dropWhile isSpace) := by
  cases hs with
  | @mk word₁ gap₁ gap₂ word₂ gap₃ before after table left right hword₁ hgap₁ hgap₂ hword₂ hgap₃
      hbefore hafter =>
      obtain ⟨htable, hleft, hright⟩ := forall_mem_join_names.mp hnames
      have hkeyword : IsKeyword "ON" := by decide
      obtain ⟨v, hv⟩ := run_optionalWs rest
      have hequality := run_fieldEquality hleft hright hbefore hafter hrest
      have hon := runSeq_keyword hword₂ hkeyword hgap₃ (stops_field hleft _)
        (runSeq_cons hequality (runSeq_cons hv runSeq_nil))
      have hgap (tail : List Char) :=
        run_ws hgap₂ (stops_keyword hword₂ hkeyword (gap₃ ++ tail))
      have hname (tail : List Char) := run_identifier htable (stops_gap hgap₂ tail)
      have hseq := runSeq_keyword hword₁ (by decide) hgap₁ (stops_name htable _)
        (runSeq_cons (hname _) (runSeq_cons (hgap _) hon))
      rw [joinClause]
      simp only [List.append_assoc, List.cons_append]
      exact run_filterMap_seq hseq rfl

theorem exists_of_run_joinClause (h : joinClause.run text = some (v, rest)) :
    ∃ (join : Join) (s blanks : List Char), join.Spelled .accepted s ∧
      (∀ name ∈ join.names, IsName name) ∧ Blanks blanks ∧ Stops isSpace rest ∧
      Stops isWord (blanks ++ rest) ∧ text = s ++ (blanks ++ rest) ∧ v = .join join := by
  rw [joinClause, run_filterMap_seq_eq_some_iff] at h
  obtain ⟨vs, hv, h⟩ := h
  obtain ⟨word₁, gap₁, _, _, _, _, hword₁, hgap₁, rfl, rfl, h₁⟩ :=
    exists_of_runSeq_keyword (by decide) h
  obtain ⟨_, _, _, rfl, hname, h₂⟩ := runSeq_cons_eq_some_iff.mp h₁
  obtain ⟨_, _, _, rfl, hws, h₃⟩ := runSeq_cons_eq_some_iff.mp h₂
  obtain ⟨word₂, gap₃, _, _, _, _, hword₂, hgap₃, rfl, rfl, h₄⟩ :=
    exists_of_runSeq_keyword (by decide) h₃
  obtain ⟨_, _, _, rfl, hequality, h₅⟩ := runSeq_cons_eq_some_iff.mp h₄
  obtain ⟨_, _, _, rfl, hoptional, h₆⟩ := runSeq_cons_eq_some_iff.mp h₅
  obtain ⟨rfl, rfl⟩ := runSeq_nil_eq_some_iff.mp h₆
  obtain ⟨blanks, hblanks, hrest, rfl⟩ := exists_of_run_optionalWs hoptional
  obtain ⟨left, right, before, after, hleft, hright, hbefore, hafter, hstops, rfl, rfl⟩ :=
    exists_of_run_fieldEquality hequality
  obtain ⟨gap₂, hgap₂, -, rfl, -⟩ := run_ws_eq_some_iff.mp hws
  obtain ⟨table, htable, -, rfl, rfl⟩ := run_identifier_eq_some_iff.mp hname
  refine ⟨⟨table, left, right⟩, _, blanks,
    .mk table left right hword₁ hgap₁ hgap₂ hword₂ hgap₃ hbefore hafter,
    forall_mem_join_names.mpr ⟨htable, hleft, hright⟩, hblanks, hrest, hstops, ?_,
    (Option.some.inj hv).symm⟩
  simp only [List.append_assoc, List.cons_append]

theorem run_whereClause {condition : Condition} {word gap : List Char}
    (hword : FoldsTo "WHERE" word) (hgap : Gap gap) (hs : condition.Spelled .accepted s)
    (hnames : ∀ name ∈ condition.names, IsName name)
    (hread : condition.left.Readable ∧ condition.right.Readable)
    (hclosed : Closed condition.right rest) :
    whereClause.run (word ++ (gap ++ (s ++ rest))) =
      some (.condition condition, rest.dropWhile isSpace) := by
  obtain ⟨v, hv⟩ := run_optionalWs rest
  have hcomparison := run_comparison hs hnames hread hclosed
  have hseq := runSeq_keyword hword (by decide) hgap (stops_condition hs hnames rest)
    (runSeq_cons hcomparison (runSeq_cons hv runSeq_nil))
  exact run_filterMap_seq hseq rfl

theorem exists_of_run_whereClause (h : whereClause.run text = some (v, rest)) :
    ∃ (condition : Condition) (word gap s blanks : List Char), FoldsTo "WHERE" word ∧ Gap gap ∧
      condition.Spelled .accepted s ∧ (∀ name ∈ condition.names, IsName name) ∧
      (condition.left.Readable ∧ condition.right.Readable) ∧ Blanks blanks ∧ Stops isSpace rest ∧
      text = word ++ (gap ++ (s ++ (blanks ++ rest))) ∧ v = .condition condition := by
  rw [whereClause, run_filterMap_seq_eq_some_iff] at h
  obtain ⟨vs, hv, h⟩ := h
  obtain ⟨word, gap, _, _, _, _, hword, hgap, rfl, rfl, h₁⟩ :=
    exists_of_runSeq_keyword (by decide) h
  obtain ⟨_, _, _, rfl, hcomparison, h₂⟩ := runSeq_cons_eq_some_iff.mp h₁
  obtain ⟨_, _, _, rfl, hoptional, h₃⟩ := runSeq_cons_eq_some_iff.mp h₂
  obtain ⟨rfl, rfl⟩ := runSeq_nil_eq_some_iff.mp h₃
  obtain ⟨blanks, hblanks, hrest, rfl⟩ := exists_of_run_optionalWs hoptional
  obtain ⟨condition, s, hs, hnames, hread, rfl, rfl⟩ := exists_of_run_comparison hcomparison
  exact ⟨condition, word, gap, s, blanks, hword, hgap, hs, hnames, hread, hblanks, hrest, rfl,
    (Option.some.inj hv).symm⟩

end TableQuery.Dialect
