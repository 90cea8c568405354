import TableQuery.Proofs.Dialect.Clauses

/-!
What the rule for queries takes. The clauses after the selection are optional
and begin with different keywords, so leaving one out is never a choice: it is
there if its keyword and the rest of it are there. Nothing after a selection can
make the whole rule fail.
-/

namespace TableQuery.Dialect

open Text Pattern Regex

variable {text rest s : List Char} {v : Phrase}

/-- A keyword right after a name would be a part of it. -/
theorem gap_of_stops {blanks : List Char} {word : String} (hblanks : Blanks blanks)
    (hs : FoldsTo word s) (hword : IsKeyword word)
    (h : Stops isWord (blanks ++ (s ++ rest))) : Gap blanks := by
  refine ⟨?_, hblanks⟩
  rintro rfl
  obtain ⟨c, tail, rfl, hc, -⟩ := exists_head_of_foldsTo hs hword
  exact Bool.eq_false_iff.mp h hc

theorem exists_keyword_of_join {join : Join} (hs : join.Spelled .accepted s) :
    ∃ word tail, FoldsTo "JOIN" word ∧ s = word ++ tail := by
  cases hs with
  | @mk word₁ gap₁ gap₂ word₂ gap₃ before after table left right hword₁ =>
      simp only [List.append_assoc]
      exact ⟨word₁, _, hword₁, rfl⟩

theorem run_joinClause_eq_none (h : ∀ s tail, FoldsTo "JOIN" s → text ≠ s ++ tail) :
    joinClause.run text = none := by
  rw [Option.eq_none_iff_forall_ne_some]
  rintro ⟨v, rest⟩ hrun
  obtain ⟨join, s, blanks, hs, -, -, -, -, htext, -⟩ := exists_of_run_joinClause hrun
  obtain ⟨word, tail, hword, rfl⟩ := exists_keyword_of_join hs
  exact h word (tail ++ (blanks ++ rest)) hword (by rw [htext, List.append_assoc])

theorem dropWhile_blanks (hs : Blanks s) : s.dropWhile isSpace = [] := by
  rw [← List.append_nil s]
  exact dropWhile_append hs stops_nil

theorem closed_blanks {operand : Operand} (hs : Blanks s) : Closed operand s :=
  closed_of_stops (stops_of_all fun c hc => isWord_of_isSpace (hs c hc))
    (stops_of_all fun c hc => isNumberChar_of_isSpace (hs c hc))

/-! ### All joins of a query -/

def nextJoin : List Char → Option (Phrase × List Char) :=
  nextElement joinClause (some optionalWs)

theorem nextJoin_eq (text : List Char) :
    nextJoin text = joinClause.run (text.dropWhile isSpace) := by
  obtain ⟨v, hv⟩ := run_optionalWs text
  rw [nextJoin, nextElement, runSeparator, hv]
  rfl

theorem length_lt_of_run_joinClause (h : joinClause.run text = some (v, rest)) :
    rest.length < text.length := by
  obtain ⟨join, s, blanks, hs, -, -, -, -, rfl, -⟩ := exists_of_run_joinClause h
  obtain ⟨word, tail, hword, rfl⟩ := exists_keyword_of_join hs
  obtain ⟨c, word, rfl, -⟩ := exists_head_of_foldsTo hword (by decide)
  simp only [List.length_append, List.length_cons]
  omega

/-- The optional list of joins is the chain of them, whether or not it is
empty. -/
theorem run_joins (h : Stops isSpace text) :
    ∃ v, (optional (rep joinClause (some optionalWs))).run text =
        some (v, (chain nextJoin text).2) ∧
      v.joins? = (chain nextJoin text).1.mapM Phrase.join? := by
  have hnext : nextJoin text = joinClause.run text := by
    rw [nextJoin_eq, dropWhile_of_stops h]
  cases hjoin : joinClause.run text with
  | none =>
      rw [chain_of_none (hnext.trans hjoin)]
      refine ⟨.nothing, run_optional_eq_some_iff.mpr (.inr ⟨?_, rfl, rfl⟩), rfl⟩
      rw [Option.eq_none_iff_forall_ne_some]
      rintro ⟨w, tail⟩ hrep
      obtain ⟨_, _, h, -⟩ := run_rep_eq_some_iff.mp hrep
      rw [hjoin] at h
      simp at h
  | some result =>
      obtain ⟨w, mid⟩ := result
      have hlt := length_lt_of_run_joinClause hjoin
      rw [chain_of_some (hnext.trans hjoin) hlt]
      refine ⟨.list (w :: (chain nextJoin mid).1), run_optional_eq_some_iff.mpr (.inl ?_), rfl⟩
      exact run_rep_eq_some_iff.mpr ⟨w, mid, hjoin, hlt, rfl, rfl⟩

theorem stops_joins {joins : List Join} (hs : JoinsSpelled .accepted joins s)
    (hrest : Stops isWord rest) : Stops isWord (s ++ rest) := by
  cases hs with
  | nil => exact hrest
  | cons hgap _ _ =>
      simp only [List.append_assoc]
      exact stops_gap hgap _

theorem chain_nextJoin {joins : List Join} (hs : JoinsSpelled .accepted joins s)
    (hnames : ∀ name ∈ joins.flatMap Join.names, IsName name) (hrest : Stops isWord rest)
    (hend : joinClause.run (rest.dropWhile isSpace) = none) :
    chain nextJoin ((s ++ rest).dropWhile isSpace) =
      (joins.map Phrase.join, rest.dropWhile isSpace) := by
  have hdrop (text : List Char) := dropWhile_of_stops (stops_dropWhile isSpace text)
  induction hs with
  | nil =>
      rw [List.nil_append, chain_of_none, List.map_nil]
      rw [nextJoin_eq, hdrop, hend]
  | @cons join joins gap s s' hgap hs hjoins ih =>
      rw [List.flatMap_cons] at hnames
      obtain ⟨hnamesJoin, hnamesJoins⟩ := List.forall_mem_append.mp hnames
      have hjoin := run_joinClause hs hnamesJoin (stops_joins hjoins hrest)
      have hstops : Stops isSpace (s ++ (s' ++ rest)) := by
        obtain ⟨word, tail, hword, rfl⟩ := exists_keyword_of_join hs
        rw [List.append_assoc]
        exact stops_keyword hword (by decide) _
      -- The gap before the join is gone: the clause before it has taken all blanks.
      have htext : (gap ++ s ++ s' ++ rest).dropWhile isSpace = s ++ (s' ++ rest) := by
        simp only [List.append_assoc]
        exact dropWhile_append hgap.2 hstops
      have hnext : nextJoin (s ++ (s' ++ rest)) =
          some (.join join, (s' ++ rest).dropWhile isSpace) := by
        rw [nextJoin_eq, dropWhile_of_stops hstops, hjoin]
      rw [htext, chain_of_some hnext (length_lt_of_run_joinClause hjoin), ih hnamesJoins]
      rfl

/-- Each join takes the blanks after it, which the next one needs before it. -/
theorem exists_of_chain_nextJoin (htext : Stops isSpace text) {blanks : List Char}
    (hblanks : Blanks blanks) (hword : Stops isWord (blanks ++ text)) :
    ∃ (joins : List Join) (s after : List Char), JoinsSpelled .accepted joins s ∧
      (∀ name ∈ joins.flatMap Join.names, IsName name) ∧ Blanks after ∧
      Stops isSpace (chain nextJoin text).2 ∧ Stops isWord (after ++ (chain nextJoin text).2) ∧
      blanks ++ text = s ++ (after ++ (chain nextJoin text).2) ∧
      (chain nextJoin text).1 = joins.map Phrase.join := by
  -- The blanks were taken by the clause before the text, so they vary with it.
  revert blanks htext
  refine chain_induction (motive := fun text vs rest => Stops isSpace text →
    ∀ {blanks : List Char}, Blanks blanks → Stops isWord (blanks ++ text) →
      ∃ (joins : List Join) (s after : List Char), JoinsSpelled .accepted joins s ∧
        (∀ name ∈ joins.flatMap Join.names, IsName name) ∧ Blanks after ∧ Stops isSpace rest ∧
        Stops isWord (after ++ rest) ∧ blanks ++ text = s ++ (after ++ rest) ∧
        vs = joins.map Phrase.join) ?_ ?_ text
  · intro text htext blanks hblanks hword
    exact ⟨[], [], blanks, .nil, by simp, hblanks, htext, hword, rfl, rfl⟩
  · intro text v mid vs rest hnext ih htext blanks hblanks hword
    rw [nextJoin_eq, dropWhile_of_stops htext] at hnext
    obtain ⟨join, s, between, hs, hnames, hbetween, hmid, hstops, rfl, rfl⟩ :=
      exists_of_run_joinClause hnext
    obtain ⟨joins, s', after, hjoins, hnames', hafter, hrest, hend, hcut, rfl⟩ :=
      ih hmid hbetween hstops
    have hgap : Gap blanks := by
      obtain ⟨word, tail, hjoin, rfl⟩ := exists_keyword_of_join hs
      rw [List.append_assoc] at hword
      exact gap_of_stops hblanks hjoin (by decide) hword
    refine ⟨join :: joins, _, after, .cons hgap hs hjoins, ?_, hafter, hrest, hend, ?_, rfl⟩
    · rw [List.flatMap_cons]
      exact List.forall_mem_append.mpr ⟨hnames, hnames'⟩
    · rw [hcut]
      simp only [List.append_assoc]

theorem mapM_join?_map (joins : List Join) :
    (joins.map Phrase.join).mapM Phrase.join? = some joins := by
  induction joins with
  | nil => rfl
  | cons join joins ih => simp [Phrase.join?, ih]

/-- What is read of a condition after blanks that have been taken already. -/
theorem exists_of_run_optionalWhere (htext : Stops isSpace text) {blanks : List Char}
    (hblanks : Blanks blanks) (hword : Stops isWord (blanks ++ text)) :
    ∃ (condition : Option Condition) (s after rest : List Char) (v : Phrase),
      (optional whereClause).run text = some (v, rest) ∧ v.condition? = some condition ∧
      RestrictionSpelled .accepted condition s ∧
      (∀ name ∈ condition.toList.flatMap Condition.names, IsName name) ∧
      (∀ c ∈ condition, c.left.Readable ∧ c.right.Readable) ∧ Blanks after ∧
      Stops isSpace rest ∧ blanks ++ text = s ++ (after ++ rest) := by
  cases hwhere : whereClause.run text with
  | none =>
      exact ⟨none, [], blanks, text, .nothing,
        run_optional_eq_some_iff.mpr (.inr ⟨hwhere, rfl, rfl⟩), rfl, .none, by simp, by simp,
        hblanks, htext, rfl⟩
  | some result =>
      obtain ⟨v, rest⟩ := result
      have hrun := run_optional_eq_some_iff.mpr (.inl hwhere)
      obtain ⟨condition, word, gap, s, after, hkeyword, hgap, hs, hnames, hread, hafter, hrest,
        rfl, rfl⟩ := exists_of_run_whereClause hwhere
      have hbefore := gap_of_stops hblanks hkeyword (by decide) hword
      refine ⟨some condition, _, after, rest, .condition condition, hrun, rfl,
        .some hbefore hkeyword hgap hs, by simpa using hnames, by simpa using hread, hafter, hrest,
        ?_⟩
      simp only [List.append_assoc]

theorem run_optionalWhere {condition : Option Condition} {blanks : List Char}
    (hs : RestrictionSpelled .accepted condition s)
    (hnames : ∀ name ∈ condition.toList.flatMap Condition.names, IsName name)
    (hread : ∀ c ∈ condition, c.left.Readable ∧ c.right.Readable) (hblanks : Blanks blanks) :
    ∃ v, (optional whereClause).run ((s ++ blanks).dropWhile isSpace) = some (v, []) ∧
      v.condition? = some condition := by
  cases hs with
  | none =>
      refine ⟨.nothing, run_optional_eq_some_iff.mpr (.inr ⟨?_, rfl, ?_⟩), rfl⟩
      · rw [List.nil_append, dropWhile_blanks hblanks, Option.eq_none_iff_forall_ne_some]
        rintro ⟨v, rest⟩ h
        obtain ⟨_, word, _, _, _, hword, -, -, -, -, -, -, htext, -⟩ :=
          exists_of_run_whereClause h
        obtain ⟨c, tail, rfl, -⟩ := exists_head_of_foldsTo hword (by decide)
        simp at htext
      · rw [List.nil_append, dropWhile_blanks hblanks]
  | @some condition gap₁ word gap₂ s hgap₁ hword hgap₂ hs =>
      have htext : (gap₁ ++ word ++ gap₂ ++ s ++ blanks).dropWhile isSpace =
          word ++ (gap₂ ++ (s ++ blanks)) := by
        simp only [List.append_assoc]
        exact dropWhile_append hgap₁.2 (stops_keyword hword (by decide) _)
      have hrun := run_whereClause hword hgap₂ hs (by simpa using hnames) (by simpa using hread)
        (closed_blanks hblanks)
      rw [dropWhile_blanks hblanks, ← htext] at hrun
      exact ⟨.condition condition, run_optional_eq_some_iff.mpr (.inl hrun), rfl⟩

/-- A condition begins with another keyword than a join. -/
theorem run_joinClause_restriction {condition : Option Condition} {blanks : List Char}
    (hs : RestrictionSpelled .accepted condition s) (hblanks : Blanks blanks) :
    joinClause.run ((s ++ blanks).dropWhile isSpace) = none := by
  refine run_joinClause_eq_none fun word tail hjoin h => ?_
  cases hs with
  | none =>
      rw [List.nil_append, dropWhile_blanks hblanks] at h
      obtain ⟨c, word, rfl, -⟩ := exists_head_of_foldsTo hjoin (by decide)
      simp at h
  | some hgap₁ hword _ _ =>
      simp only [List.append_assoc] at h
      rw [dropWhile_append hgap₁.2 (stops_keyword hword (by decide) _)] at h
      exact absurd (head?_eq_of_foldsTo hword hjoin (by decide) (by decide) h) (by decide)

theorem stops_restriction {condition : Option Condition} {blanks : List Char}
    (hs : RestrictionSpelled .accepted condition s) (hblanks : Blanks blanks) :
    Stops isWord (s ++ blanks) := by
  cases hs with
  | none => exact stops_of_all fun c hc => isWord_of_isSpace (hblanks c hc)
  | some hgap _ _ _ =>
      simp only [List.append_assoc]
      exact stops_gap hgap _

/-! ### Queries -/

theorem forall_mem_names {query : Query} {good : String → Prop} :
    (∀ name ∈ query.names, good name) ↔
      (∀ name ∈ query.select.fields.names, good name) ∧ good query.select.source ∧
        (∀ name ∈ query.joins.flatMap Join.names, good name) ∧
        ∀ name ∈ query.condition.toList.flatMap Condition.names, good name := by
  rw [Query.names, List.forall_mem_append, List.forall_mem_append, List.forall_mem_cons, and_assoc,
    and_assoc]

theorem toQuery?_list {joins : List Join} {condition : Option Condition} {w u : Phrase}
    (hw : w.joins? = some joins) (hu : u.condition? = some condition) (select : Select)
    (v z : Phrase) :
    Phrase.toQuery? (Capture.list [.select select, v, w, u, z]) =
      some (.query ⟨select, joins, condition⟩) := by
  change (w.joins?.bind fun joins => u.condition?.bind fun condition =>
    some (Phrase.query ⟨select, joins, condition⟩)) = _
  rw [hw, hu]
  rfl

theorem exists_of_run_selectClause_query (h : selectClause.run text = some (v, rest)) :
    ∃ (query : Query) (s tail : List Char), Dialect.query.run text = some (.query query, tail) ∧
      query.Spelled .accepted s ∧ query.WellFormed ∧ text = s ++ tail ∧ Stops isSpace tail := by
  obtain ⟨select, s₁, b₁, hselect, hfields, hnames, hsource, hb₁, hrest, hend₁, htext, rfl⟩ :=
    exists_of_run_selectClause h
  -- From here on each part matches, if only by taking nothing.
  obtain ⟨w, hw⟩ := run_optionalWs rest
  rw [dropWhile_of_stops hrest] at hw
  obtain ⟨u, hu, hjoins?⟩ := run_joins hrest
  obtain ⟨joins, s₂, b₂, hjoins, hnames₂, hb₂, hmid, hend₂, hcut₂, hmap⟩ :=
    exists_of_chain_nextJoin hrest hb₁ hend₁
  obtain ⟨condition, s₃, b₃, tail, x, hx, hcondition?, hcondition, hnames₃, hread, hb₃, htail,
    hcut₃⟩ := exists_of_run_optionalWhere hmid hb₂ hend₂
  obtain ⟨y, hy⟩ := run_optionalWs tail
  rw [dropWhile_of_stops htail] at hy
  rw [hmap, mapM_join?_map] at hjoins?
  refine ⟨⟨select, joins, condition⟩, _, tail, ?_, .mk hselect hjoins hcondition hb₃,
    ⟨forall_mem_names.mpr ⟨hnames, hsource, hnames₂, hnames₃⟩, hfields, hread⟩, ?_, htail⟩
  · exact run_filterMap_seq (runSeq_cons h (runSeq_cons hw (runSeq_cons hu (runSeq_cons hx
      (runSeq_cons hy runSeq_nil))))) (toQuery?_list hjoins? hcondition? ..)
  · rw [htext, hcut₂, hcut₃]
    simp only [List.append_assoc]

theorem exists_run_selectClause_of_run_query (h : Dialect.query.run text = some (v, rest)) :
    ∃ w mid, selectClause.run text = some (w, mid) := by
  rw [Dialect.query, run_filterMap_seq_eq_some_iff] at h
  obtain ⟨vs, -, h⟩ := h
  obtain ⟨w, mid, -, -, hselect, -⟩ := runSeq_cons_eq_some_iff.mp h
  exact ⟨w, mid, hselect⟩

theorem run_query_eq_none_iff :
    Dialect.query.run text = none ↔ selectClause.run text = none := by
  simp only [Option.eq_none_iff_forall_ne_some, ne_eq]
  constructor
  · rintro hquery ⟨v, rest⟩ hselect
    obtain ⟨query, s, tail, h, -⟩ := exists_of_run_selectClause_query hselect
    exact hquery _ h
  · rintro hselect ⟨v, rest⟩ hquery
    obtain ⟨w, mid, h⟩ := exists_run_selectClause_of_run_query hquery
    exact hselect _ h

theorem exists_of_run_query (h : Dialect.query.run text = some (v, rest)) :
    ∃ (query : Query) (s : List Char), query.Spelled .accepted s ∧ query.WellFormed ∧
      text = s ++ rest ∧ Stops isSpace rest ∧ v = .query query := by
  obtain ⟨w, mid, hselect⟩ := exists_run_selectClause_of_run_query h
  obtain ⟨query, s, tail, hquery, hs, hwell, htext, htail⟩ :=
    exists_of_run_selectClause_query hselect
  rw [h, Option.some.injEq, Prod.mk.injEq] at hquery
  obtain ⟨rfl, rfl⟩ := hquery
  exact ⟨query, s, hs, hwell, htext, htail, rfl⟩

theorem run_query {query : Query} (hs : query.Spelled .accepted s) (hq : query.WellFormed) :
    Dialect.query.run s = some (.query query, []) := by
  obtain ⟨hnames, hfields, hread⟩ := hq
  cases hs with
  | @mk select joins condition s₁ s₂ s₃ blanks hselect hjoins hcondition hblanks =>
      obtain ⟨hnames₁, hsource, hnames₂, hnames₃⟩ := forall_mem_names.mp hnames
      have hstops := stops_restriction hcondition hblanks
      have hrun₁ := run_selectClause hselect hnames₁ hsource (stops_joins hjoins hstops)
      have hmid := stops_dropWhile isSpace (s₂ ++ (s₃ ++ blanks))
      obtain ⟨v, hv⟩ := run_optionalWs ((s₂ ++ (s₃ ++ blanks)).dropWhile isSpace)
      rw [dropWhile_of_stops hmid] at hv
      obtain ⟨w, hw, hjoins?⟩ := run_joins hmid
      rw [chain_nextJoin hjoins hnames₂ hstops (run_joinClause_restriction hcondition hblanks)]
        at hw hjoins?
      rw [mapM_join?_map] at hjoins?
      obtain ⟨u, hu, hcondition?⟩ := run_optionalWhere hcondition hnames₃ hread hblanks
      obtain ⟨z, hz⟩ := run_optionalWs []
      rw [Dialect.query, List.append_assoc, List.append_assoc]
      exact run_filterMap_seq (runSeq_cons hrun₁ (runSeq_cons hv (runSeq_cons hw (runSeq_cons hu
        (runSeq_cons hz runSeq_nil))))) (toQuery?_list hjoins? hcondition? ..)

end TableQuery.Dialect
