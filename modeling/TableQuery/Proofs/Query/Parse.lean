import TableQuery.Proofs.Dialect.Lexicon
import TableQuery.Proofs.Dialect.Queries
import TableQuery.Proofs.Pattern.Remainders
import TableQuery.Query.Parse

/-!
What reading a whole text as a query comes to. The queries that are read are
those that the grammar relates to the whole text; all others fail, either at the
very beginning or after a part that is a query in its own right.
-/

namespace TableQuery.Query

open Text

variable {text : String} {query : Query}

theorem parse_of_run {phrase : Dialect.Phrase} {rest : List Char}
    (h : Dialect.query.run text.toList = some (phrase, rest)) :
    ∃ query s, Spelled .accepted query s ∧ query.WellFormed ∧ text.toList = s ++ rest ∧
      Stops isSpace rest ∧ phrase = .query query ∧
      parse text =
        if rest.isEmpty then .ok query
        else .error (.trailingInput (byteLength s) (String.ofList rest)) := by
  obtain ⟨query, s, hs, hwell, htext, hrest, rfl⟩ := Dialect.exists_of_run_query h
  refine ⟨query, s, hs, hwell, htext, hrest, rfl, ?_⟩
  have hlength : byteLength text.toList - byteLength rest = byteLength s := by
    rw [htext, byteLength_append, Nat.add_sub_cancel]
  rw [parse, h]
  simp only [hlength]

theorem parse_eq_ok_iff :
    parse text = .ok query ↔ query.Spelled .accepted text.toList ∧ query.WellFormed := by
  constructor
  · intro h
    cases hrun : Dialect.query.run text.toList with
    | none =>
        rw [parse, hrun] at h
        simp at h
    | some result =>
        obtain ⟨phrase, rest⟩ := result
        obtain ⟨other, s, hs, hwell, htext, -, -, hparse⟩ := parse_of_run hrun
        rw [hparse] at h
        cases rest with
        | nil =>
            obtain rfl : other = query := Except.ok.inj h
            rw [htext, List.append_nil]
            exact ⟨hs, hwell⟩
        | cons c rest => simp at h
  · rintro ⟨hs, hwell⟩
    rw [parse, Dialect.run_query hs hwell]
    rfl

theorem parse_eq_invalidQuery_iff :
    parse text = .error .invalidQuery ↔ Dialect.query.run text.toList = none := by
  constructor
  · intro h
    cases hrun : Dialect.query.run text.toList with
    | none => rfl
    | some result =>
        obtain ⟨phrase, rest⟩ := result
        obtain ⟨_, _, -, -, -, -, -, hparse⟩ := parse_of_run hrun
        rw [hparse] at h
        split at h <;> simp at h
  · intro h
    rw [parse, h]

/-- Names need not differ from keywords, and blanks may stand wherever the
grammar has them. -/
theorem parse_eq_ok_of_spelled (hs : query.Spelled .plain text.toList) (hq : query.WellFormed) :
    parse text = .ok query :=
  parse_eq_ok_iff.mpr ⟨hs.mono accepted_covers_plain, hq⟩

theorem parse_keywords_as_names :
    parse "select FROM.x ,ON.y FROM\tFROM  jOiN ON On FROM.x= ON.y WHERE JOIN.z<>'it\\'s' " =
      .ok ⟨⟨.fields [⟨"FROM", "x"⟩, ⟨"ON", "y"⟩], "FROM"⟩, [⟨"ON", ⟨"FROM", "x"⟩, ⟨"ON", "y"⟩⟩],
        some ⟨.field ⟨"JOIN", "z"⟩, .notEqual, .literal (.string "it's")⟩⟩ := by
  have hfields := @FieldList.Spelled.fields ⟨"FROM", "x"⟩ _ _
    (@FurtherFields.cons ⟨"ON", "y"⟩ _ [' '] [] _ (by decide) (by decide) .nil)
  have hselect := @Select.Spelled.mk .plain _ "select".toList [' '] _ [' '] "FROM".toList ['\t']
    "FROM" (by decide) (by decide) hfields (by decide) (by decide) (by decide)
  have hjoin := @Join.Spelled.mk .plain "jOiN".toList [' '] [' '] "On".toList [' '] [] [' ']
    "ON" ⟨"FROM", "x"⟩ ⟨"ON", "y"⟩ (by decide) (by decide) (by decide) (by decide) (by decide)
    (by decide) (by decide)
  have hjoins := JoinsSpelled.cons (by decide : Gap [' ', ' ']) hjoin .nil
  have hstring : Operand.Spelled .plain (.literal (.string "it's")) _ :=
    .literal (.string ⟨'\x27', by decide, rfl⟩)
  have hcondition := @Condition.Spelled.mk .plain _ _ _ [] [] _ .notEqual (.field ⟨"JOIN", "z"⟩)
    (by decide) (by decide) hstring
  have hrestriction := @RestrictionSpelled.some .plain _ [' '] "WHERE".toList [' '] _ (by decide)
    (by decide) (by decide) hcondition
  have hquery := Query.Spelled.mk hselect hjoins hrestriction (by decide : Blanks [' '])
  refine parse_eq_ok_of_spelled ?_ ⟨by decide, by decide, by decide⟩
  simpa [FieldRef.text, CompareOp.symbol, escape] using hquery

/-- The grammar is unambiguous: a text writes down at most one query. -/
theorem eq_of_spelled {other : Query} {s : List Char} (hs : query.Spelled .accepted s)
    (hq : query.WellFormed) (hs' : other.Spelled .accepted s) (hq' : other.WellFormed) :
    query = other := by
  have h := Dialect.run_query hs hq
  rw [Dialect.run_query hs' hq'] at h
  simpa using h.symm

theorem point_notMem_of_isName {name : String} (h : IsName name) : '.' ∉ name.toList := by
  intro hpoint
  exact absurd (h.2 '.' hpoint) (by decide)

theorem ne_nan_of_spelled {operand : Operand} {s : List Char} {n : Binary64}
    (hs : operand.Spelled .accepted s) (h : operand = .literal (.number n)) : n ≠ .nan := by
  subst h
  cases hs with
  | literal hs =>
      cases hs with
      | number hs => exact Dialect.ne_nan_of_numericPrefix? hs.2.2

theorem spelled_of_parse_eq_ok (h : parse text = .ok query) :
    query.Spelled .accepted text.toList ∧ query.WellFormed ∧
      (∀ name ∈ query.names, '.' ∉ name.toList) ∧
      ∀ condition ∈ query.condition, ∀ operand ∈ [condition.left, condition.right],
        operand ≠ .literal (.number .nan) := by
  obtain ⟨hs, hwell⟩ := parse_eq_ok_iff.mp h
  refine ⟨hs, hwell, fun name hname => point_notMem_of_isName (hwell.names name hname), ?_⟩
  rintro condition hcondition operand hoperand rfl
  generalize text.toList = s at hs
  cases hs with
  | mk _ _ hrestriction _ =>
      cases hrestriction with
      | none => simp at hcondition
      | some _ _ _ hs =>
          obtain rfl := Option.some.inj hcondition
          cases hs with
          | mk _ hleft _ _ hright =>
              simp only [List.mem_cons, List.not_mem_nil, or_false] at hoperand
              rcases hoperand with h | h
              · exact ne_nan_of_spelled hleft h.symm rfl
              · exact ne_nan_of_spelled hright h.symm rfl

theorem parse_long_s :
    parse "\u017FelecT *\tfrOm t where t.x <NULL " =
        .ok ⟨⟨.wildcard, "t"⟩, [], some ⟨.field ⟨"t", "x"⟩, .less, .literal .null⟩⟩ ∧
      Spelled .accepted ⟨⟨.wildcard, "t"⟩, [], some ⟨.field ⟨"t", "x"⟩, .less, .literal .null⟩⟩
        "\u017FelecT *\tfrOm t where t.x <NULL ".toList := by
  have hselect := @Select.Spelled.mk .accepted _ "\u017FelecT".toList [' '] _ ['\t']
    "frOm".toList [' '] "t" (by decide) (by decide) .wildcard (by decide) (by decide) (by decide)
  have hnull : Operand.Spelled .accepted (.literal .null) "NULL".toList :=
    .literal (.null (by decide))
  have hcondition := @Condition.Spelled.mk .accepted _ _ _ [' '] [] _ .less (.field ⟨"t", "x"⟩)
    (by decide) (by decide) hnull
  have hrestriction := @RestrictionSpelled.some .accepted _ [' '] "where".toList [' '] _
    (by decide) (by decide) (by decide) hcondition
  have hquery := Query.Spelled.mk hselect .nil hrestriction (by decide : Blanks [' '])
  have h : parse "\u017FelecT *\tfrOm t where t.x <NULL " =
      .ok ⟨⟨.wildcard, "t"⟩, [], some ⟨.field ⟨"t", "x"⟩, .less, .literal .null⟩⟩ := by
    refine parse_eq_ok_iff.mpr ⟨?_, ⟨by decide, by decide, by decide⟩⟩
    simpa [FieldRef.text, CompareOp.symbol] using hquery
  exact ⟨h, (spelled_of_parse_eq_ok h).1⟩

theorem matchAt?_zero (pattern : Pattern Dialect.Phrase) (text : String) :
    pattern.matchAt? text 0 = (pattern.run text.toList).map fun (v, rest) =>
      ⟨v, byteLength text.toList - byteLength rest⟩ := by
  have hstart : dropBytes? 0 text.toList = some text.toList := by rw [dropBytes?]
  simpa only [Nat.zero_add] using Pattern.matchAt?_eq_map_run pattern hstart

theorem byteLength_pos_of_spelled {s : List Char} (hs : query.Spelled .accepted s) :
    0 < byteLength s := by
  cases hs with
  | mk hselect _ _ _ =>
      cases hselect with
      | mk _ hword _ _ _ _ _ =>
          obtain ⟨c, tail, rfl, -⟩ := exists_head_of_foldsTo hword (by decide)
          have hc : 0 < c.utf8Size := Char.utf8Size_pos c
          simp only [List.cons_append, byteLength]
          omega

/-- What was read of a text is a way to write the query, whatever came after it, so
it can be cut off and read again. -/
theorem parse_cut {s rest : List Char} (hs : query.Spelled .accepted s) (hq : query.WellFormed)
    (htext : text.toList = s ++ rest) :
    text = String.ofList s ++ String.ofList rest ∧
      (String.ofList s).utf8ByteSize = byteLength s ∧ parse (String.ofList s) = .ok query := by
  refine ⟨?_, ?_, ?_⟩
  · rw [← String.ofList_append, ← htext, String.ofList_toList]
  · rw [← byteLength_toList, String.toList_ofList]
  · rw [parse_eq_ok_iff, String.toList_ofList]
    exact ⟨hs, hq⟩

/-- A text that begins with no selection is refused as a whole. Any other text
begins with a query: if that is all of it, the query is the result, and
otherwise what follows is reported, with the offset where it begins. Cut off
there, the text is read as the same query. -/
theorem parse_outcomes (text : String) :
    (parse text = .error .invalidQuery ↔ Dialect.selectClause.matchAt? text 0 = none) ∧
      (Dialect.selectClause.matchAt? text 0 = none ∨
        ∃ query stop, Dialect.query.matchAt? text 0 = some ⟨.query query, stop⟩ ∧
          if stop = text.utf8ByteSize then parse text = .ok query
          else
            ∃ accepted remainder, text = accepted ++ remainder ∧
              accepted.utf8ByteSize = stop ∧ 0 < stop ∧
              (∃ c tail, remainder.toList = c :: tail ∧ isSpace c = false) ∧
              parse text = .error (.trailingInput stop remainder) ∧
              parse accepted = .ok query) := by
  have hnone (pattern : Pattern Dialect.Phrase) :
      pattern.matchAt? text 0 = none ↔ pattern.run text.toList = none := by
    rw [matchAt?_zero, Option.map_eq_none_iff]
  refine ⟨?_, ?_⟩
  · rw [parse_eq_invalidQuery_iff, hnone, Dialect.run_query_eq_none_iff]
  · rw [hnone, ← Dialect.run_query_eq_none_iff]
    cases hrun : Dialect.query.run text.toList with
    | none => exact .inl rfl
    | some result =>
        obtain ⟨phrase, rest⟩ := result
        obtain ⟨query, s, hs, hwell, htext, hrest, rfl, hparse⟩ := parse_of_run hrun
        refine .inr ⟨query, byteLength s, ?_, ?_⟩
        · rw [matchAt?_zero, hrun, htext]
          simp
        · rw [← byteLength_toList, htext, byteLength_append]
          cases rest with
          | nil => rwa [byteLength, Nat.add_zero, if_pos rfl]
          | cons c rest =>
              have hc : 0 < c.utf8Size := Char.utf8Size_pos c
              rw [if_neg (by rw [byteLength]; omega)]
              obtain ⟨hcut, hsize, haccepted⟩ := parse_cut hs hwell htext
              exact ⟨String.ofList s, String.ofList (c :: rest), hcut, hsize,
                byteLength_pos_of_spelled hs, ⟨c, rest, String.toList_ofList, hrest⟩, hparse,
                haccepted⟩

end TableQuery.Query
