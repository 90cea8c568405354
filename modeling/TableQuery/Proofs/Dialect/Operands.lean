import TableQuery.Proofs.Dialect.Literals
import TableQuery.Proofs.Dialect.Strings

/-!
What the rules for columns, operands and comparisons take. An operand is looked
for as a string, a number, a truth value, null and a column, in this order. Its
first character settles which of them can match, except between the words and
the columns, where the end of the name does.
-/

namespace TableQuery.Dialect

open Text Pattern Regex

variable {text rest : List Char} {v : Phrase}

theorem stops_point (rest : List Char) : Stops isWord ('.' :: rest) := by
  rw [stops_cons]
  decide

theorem run_fieldRef_eq_some_iff :
    fieldRef.run text = some (v, rest) ↔
      ∃ field : FieldRef, (∀ name ∈ field.names, IsName name) ∧ Stops isWord rest ∧
        text = field.text ++ rest ∧ v = .field field := by
  rw [fieldRef, run_filterMap_seq_eq_some_iff]
  simp only [runSeq_cons_eq_some_iff, runSeq_nil_eq_some_iff, run_identifier_eq_some_iff,
    run_literal_eq_some_iff]
  constructor
  · rintro ⟨vs, hv, _, _, _, rfl, ⟨table, htable, -, rfl, rfl⟩, _, _, _, rfl, ⟨rfl, rfl⟩,
      _, _, _, rfl, ⟨column, hcolumn, hrest, rfl, rfl⟩, rfl, rfl⟩
    refine ⟨⟨table, column⟩, ?_, hrest, ?_, (Option.some.inj hv).symm⟩
    · simp [FieldRef.names, htable, hcolumn]
    · simp [FieldRef.text]
  · rintro ⟨⟨table, column⟩, hnames, hrest, rfl, rfl⟩
    have htable : IsName table := hnames table (by simp [FieldRef.names])
    have hcolumn : IsName column := hnames column (by simp [FieldRef.names])
    refine ⟨_, ?_, _, _, _, rfl, ⟨table, htable, ?_, ?_, rfl⟩, _, _, _, rfl, ⟨rfl, rfl⟩,
      _, _, _, rfl, ⟨column, hcolumn, hrest, rfl, rfl⟩, rfl, rfl⟩
    · rfl
    · exact stops_point _
    · simp [FieldRef.text]

theorem run_fieldRef {field : FieldRef} (hnames : ∀ name ∈ field.names, IsName name)
    (hrest : Stops isWord rest) : fieldRef.run (field.text ++ rest) = some (.field field, rest) :=
  run_fieldRef_eq_some_iff.mpr ⟨field, hnames, hrest, rfl, rfl⟩

theorem exists_text_eq {field : FieldRef} (hnames : ∀ name ∈ field.names, IsName name) :
    ∃ c tail, field.text = c :: tail ∧ isWord c = true ∧ field.table.toList.head? = some c := by
  obtain ⟨hne, hword⟩ : IsName field.table := hnames _ (by simp [FieldRef.names])
  obtain ⟨c, tail, htable⟩ := List.exists_cons_of_ne_nil hne
  refine ⟨c, tail ++ '.' :: field.column.toList, ?_, ?_, ?_⟩
  · rw [FieldRef.text, htable, List.cons_append]
  · exact hword c (by simp [htable])
  · rw [htable, List.head?_cons]

/-! ### Operands -/

/-- The first character of a string, a number or a name tells which it is. -/
theorem isWord_of_isQuote {c : Char} (hc : isQuote c = true) : isWord c = false := by
  simp only [isQuote, Bool.or_eq_true, decide_eq_true_eq] at hc
  rcases hc with rfl | rfl <;> decide

theorem isQuote_of_startsNumber {c : Char} (hc : startsNumber c = true) : isQuote c = false := by
  rw [Bool.eq_false_iff]
  intro hquote
  simp only [isQuote, Bool.or_eq_true, decide_eq_true_eq] at hquote
  rcases hquote with rfl | rfl <;> exact absurd hc (by decide)

theorem startsNumber_of_isWord {c : Char} (hc : isWord c = true) :
    startsNumber c = c.isDigit := by
  have hpoint : c ≠ '.' := ne_of_class hc (by decide)
  have hminus : c ≠ '-' := ne_of_class hc (by decide)
  simp [startsNumber, hpoint, hminus]

theorem run_string_eq_none {c : Char} (hc : isQuote c = false) (tail : List Char) :
    string.run (c :: tail) = none := by
  rw [Option.eq_none_iff_forall_ne_some]
  rintro ⟨v, rest⟩ h
  obtain ⟨contents, s, ⟨quote, body, hquote, -, rfl⟩, htext, -⟩ := run_string_eq_some_iff.mp h
  rw [List.cons_append, List.cons.injEq] at htext
  rw [htext.1, hquote] at hc
  simp at hc

theorem run_number_eq_none {c : Char} (hc : startsNumber c = false) (tail : List Char) :
    number.run (c :: tail) = none := by
  rw [Option.eq_none_iff_forall_ne_some]
  rintro ⟨v, rest⟩ h
  obtain ⟨n, s, ⟨-, -, hn⟩, -, htext, -⟩ := run_number_eq_some_iff.mp h
  obtain ⟨d, s, rfl, hd⟩ := startsNumber_of_numericPrefix? hn
  rw [List.cons_append, List.cons.injEq] at htext
  rw [htext.1, hd] at hc
  simp at hc

theorem run_string_number_eq_none {c : Char} (hc : isWord c = true) (hdigit : c.isDigit = false)
    (tail : List Char) : string.run (c :: tail) = none ∧ number.run (c :: tail) = none := by
  have hquote : isQuote c = false := by
    rw [Bool.eq_false_iff]
    intro h
    rw [isWord_of_isQuote h] at hc
    simp at hc
  have hnumber : startsNumber c = false := (startsNumber_of_isWord hc).trans hdigit
  exact ⟨run_string_eq_none hquote tail, run_number_eq_none hnumber tail⟩

theorem run_boolean_eq_none
    (h : ∀ b s tail, FoldsTo (truthWord b) s → Stops isWord tail → text ≠ s ++ tail) :
    boolean.run text = none := by
  rw [Option.eq_none_iff_forall_ne_some]
  rintro ⟨v, rest⟩ hrun
  obtain ⟨b, s, hs, hrest, htext, -⟩ := run_boolean_eq_some_iff.mp hrun
  exact h b s rest hs hrest htext

theorem run_null_eq_none
    (h : ∀ s tail, FoldsTo "null" s → Stops isWord tail → text ≠ s ++ tail) :
    null.run text = none := by
  rw [Option.eq_none_iff_forall_ne_some]
  rintro ⟨v, rest⟩ hrun
  obtain ⟨s, hs, hrest, htext, -⟩ := run_null_eq_some_iff.mp hrun
  exact h s rest hs hrest htext

/-- The word for a literal takes a whole name or nothing of it. -/
theorem eq_table_of_foldsTo {field : FieldRef} {word : String} {s tail : List Char}
    (hnames : ∀ name ∈ field.names, IsName name) (hword : IsKeyword word)
    (hs : FoldsTo word s) (htail : Stops isWord tail) (h : field.text ++ rest = s ++ tail) :
    s = field.table.toList := by
  obtain ⟨-, htable⟩ : IsName field.table := hnames _ (by simp [FieldRef.names])
  rw [FieldRef.text, List.append_assoc, List.cons_append] at h
  exact (run_unique htable (stops_point _) (isWord_of_foldsTo hs hword) htail h).1.symm

/-- What an operand is on the way to a query. -/
def operandPhrase : Operand → Phrase
  | .field field => .field field
  | .literal value => .literal value

/-- What follows an operand does not belong to it. -/
def Closed : Operand → List Char → Prop
  | .literal (.string _), _ => True
  | .literal (.number _), rest => Stops isNumberChar rest
  | _, rest => Stops isWord rest

theorem run_value {operand : Operand} {s : List Char} (hs : operand.Spelled .accepted s)
    (hnames : ∀ name ∈ operand.names, IsName name) (hread : operand.Readable)
    (hclosed : Closed operand rest) :
    value.run (s ++ rest) = some (operandPhrase operand, rest) := by
  simp only [value, run_any_cons, run_any_nil, Option.or_none]
  cases hs with
  | field field =>
      obtain ⟨c, tail, htext, hc, hhead⟩ := exists_text_eq hnames
      have hdigit : c.isDigit = false := by
        rw [Bool.eq_false_iff]
        exact fun h => hread (.inl (by rwa [hhead]))
      obtain ⟨hstring, hnumber⟩ := run_string_number_eq_none hc hdigit (tail ++ rest)
      rw [← List.cons_append, ← htext] at hstring hnumber
      -- A word for a literal would have to be the whole name of the table.
      have hboolean : boolean.run (field.text ++ rest) = none := by
        refine run_boolean_eq_none fun b s tail hs htail h => hread ?_
        obtain rfl := eq_table_of_foldsTo hnames (isKeyword_truthWord b) hs htail h
        cases b with
        | true => exact .inr (.inl hs)
        | false => exact .inr (.inr (.inl hs))
      have hnull : null.run (field.text ++ rest) = none := by
        refine run_null_eq_none fun s tail hs htail h => hread ?_
        obtain rfl := eq_table_of_foldsTo hnames isKeyword_null hs htail h
        exact .inr (.inr (.inr hs))
      rw [hstring, hnumber, hboolean, hnull, run_fieldRef hnames hclosed]
      rfl
  | literal hs =>
      cases hs with
      | string hs =>
          rw [run_string_eq_some_iff.mpr ⟨_, s, hs, rfl, rfl⟩]
          rfl
      | number hs =>
          obtain ⟨c, tail, rfl, hc⟩ := startsNumber_of_numericPrefix? hs.2.2
          have hstring := run_string_eq_none (isQuote_of_startsNumber hc) (tail ++ rest)
          rw [← List.cons_append] at hstring
          rw [hstring, run_number_eq_some_iff.mpr ⟨_, _, hs, hclosed, rfl, rfl⟩]
          rfl
      | @boolean b s hs =>
          obtain ⟨c, tail, rfl, hc, hdigit⟩ :=
            exists_head_of_foldsTo hs (isKeyword_truthWord b)
          obtain ⟨hstring, hnumber⟩ := run_string_number_eq_none hc hdigit (tail ++ rest)
          rw [← List.cons_append] at hstring hnumber
          rw [hstring, hnumber, run_boolean_eq_some_iff.mpr ⟨b, _, hs, hclosed, rfl, rfl⟩]
          rfl
      | null hs =>
          have hboolean : boolean.run (s ++ rest) = none := by
            refine run_boolean_eq_none fun b t tail ht _ h => ?_
            have hhead := head?_eq_of_foldsTo hs ht isKeyword_null (isKeyword_truthWord b) h
            cases b <;> exact absurd hhead (by decide)
          obtain ⟨c, tail, rfl, hc, hdigit⟩ := exists_head_of_foldsTo hs isKeyword_null
          obtain ⟨hstring, hnumber⟩ := run_string_number_eq_none hc hdigit (tail ++ rest)
          rw [← List.cons_append] at hstring hnumber
          rw [hstring, hnumber, hboolean, run_null_eq_some_iff.mpr ⟨_, hs, hclosed, rfl, rfl⟩]
          rfl

theorem readable_of_run {field : FieldRef} (hnames : ∀ name ∈ field.names, IsName name)
    (hnumber : number.run (field.text ++ rest) = none)
    (hboolean : boolean.run (field.text ++ rest) = none)
    (hnull : null.run (field.text ++ rest) = none) : ¬ReadsAsLiteral field.table := by
  have htext : field.text ++ rest = field.table.toList ++ '.' :: (field.column.toList ++ rest) := by
    simp [FieldRef.text]
  have hboolean' (b : Bool) : ¬FoldsTo (truthWord b) field.table.toList := by
    intro h
    rw [htext, run_boolean_eq_some_iff.mpr ⟨b, _, h, stops_point _, rfl, rfl⟩] at hboolean
    simp at hboolean
  rintro (hdigit | h | h | h)
  · obtain ⟨c, tail, hfield, -, hhead⟩ := exists_text_eq hnames
    rw [hhead] at hdigit
    rw [hfield, List.cons_append] at hnumber
    exact run_number_ne_none hdigit _ hnumber
  · exact hboolean' true h
  · exact hboolean' false h
  · rw [htext, run_null_eq_some_iff.mpr ⟨_, h, stops_point _, rfl, rfl⟩] at hnull
    simp at hnull

theorem exists_of_run_value (h : value.run text = some (v, rest)) :
    ∃ (operand : Operand) (s : List Char), operand.Spelled .accepted s ∧
      (∀ name ∈ operand.names, IsName name) ∧ operand.Readable ∧ text = s ++ rest ∧
      v = operandPhrase operand := by
  simp only [value, run_any_cons, run_any_nil, Option.or_none, Option.or_eq_some_iff] at h
  rcases h with h | ⟨-, h | ⟨hnumber, h | ⟨hboolean, h | ⟨hnull, h⟩⟩⟩⟩
  · obtain ⟨contents, s, hs, rfl, rfl⟩ := run_string_eq_some_iff.mp h
    exact ⟨.literal (.string contents), s, .literal (.string hs), by simp [Operand.names], trivial,
      rfl, rfl⟩
  · obtain ⟨n, s, hs, -, rfl, rfl⟩ := run_number_eq_some_iff.mp h
    exact ⟨.literal (.number n), s, .literal (.number hs), by simp [Operand.names], trivial,
      rfl, rfl⟩
  · obtain ⟨b, s, hs, -, rfl, rfl⟩ := run_boolean_eq_some_iff.mp h
    exact ⟨.literal (.boolean b), s, .literal (.boolean hs), by simp [Operand.names], trivial,
      rfl, rfl⟩
  · obtain ⟨s, hs, -, rfl, rfl⟩ := run_null_eq_some_iff.mp h
    exact ⟨.literal .null, s, .literal (.null hs), by simp [Operand.names], trivial, rfl, rfl⟩
  -- A column is tried last, so here no literal was there.
  · obtain ⟨field, hnames, -, rfl, rfl⟩ := run_fieldRef_eq_some_iff.mp h
    exact ⟨.field field, field.text, .field field, hnames,
      readable_of_run hnames hnumber hboolean hnull, rfl, rfl⟩

theorem exists_head_of_spelled {operand : Operand} {s : List Char}
    (hs : operand.Spelled .accepted s) (hnames : ∀ name ∈ operand.names, IsName name) :
    ∃ c tail, s = c :: tail ∧ isSpace c = false ∧ c ≠ '=' ∧ c ≠ '>' := by
  have hword {c : Char} (hc : isWord c = true) : isSpace c = false ∧ c ≠ '=' ∧ c ≠ '>' :=
    ⟨isSpace_of_isWord hc, ne_of_class hc (by decide), ne_of_class hc (by decide)⟩
  cases hs with
  | field field =>
      obtain ⟨c, tail, htext, hc, -⟩ := exists_text_eq hnames
      exact ⟨c, tail, htext, hword hc⟩
  | literal hs =>
      cases hs with
      | string hs =>
          obtain ⟨quote, body, hquote, -, rfl⟩ := hs
          simp only [isQuote, Bool.or_eq_true, decide_eq_true_eq] at hquote
          refine ⟨quote, _, rfl, ?_⟩
          rcases hquote with rfl | rfl <;> decide
      | number hs =>
          obtain ⟨c, tail, rfl, hc⟩ := startsNumber_of_numericPrefix? hs.2.2
          simp only [startsNumber, Bool.or_eq_true, decide_eq_true_eq] at hc
          refine ⟨c, tail, rfl, ?_⟩
          rcases hc with (hc | rfl) | rfl
          · exact hword (isWord_of_isDigit hc)
          · decide
          · decide
      | @boolean b s hs =>
          obtain ⟨c, tail, rfl, hc, -⟩ :=
            exists_head_of_foldsTo hs (isKeyword_truthWord b)
          exact ⟨c, tail, rfl, hword hc⟩
      | null hs =>
          obtain ⟨c, tail, rfl, hc, -⟩ := exists_head_of_foldsTo hs isKeyword_null
          exact ⟨c, tail, rfl, hword hc⟩

/-! ### Comparisons -/

/-- The longer operators are tried first, so a shorter one is read where none of
their second halves follows. -/
theorem run_operator (op : CompareOp) (h : ∀ c ∈ rest.head?, c ≠ '=' ∧ c ≠ '>') :
    operator.run (op.symbol.toList ++ rest) = some (.operator op, rest) := by
  rw [operator, run_filterMap_eq_some_iff]
  refine ⟨.text op.symbol, ?_, by cases op <;> rfl⟩
  cases rest with
  | nil => cases op <;> simp [Pattern.run, runAny, CompareOp.symbol, Capture.text]
  | cons c rest =>
      obtain ⟨hequal, hgreater⟩ := h c rfl
      cases op <;>
        simp [Pattern.run, runAny, CompareOp.symbol, Capture.text, Ne.symm hequal,
          Ne.symm hgreater]

theorem exists_of_run_operator (h : operator.run text = some (v, rest)) :
    ∃ op : CompareOp, text = op.symbol.toList ++ rest ∧ v = .operator op := by
  rw [operator, run_filterMap_eq_some_iff] at h
  obtain ⟨w, h, hw⟩ := h
  simp only [run_any_cons, run_any_nil, Option.or_none, Option.or_eq_some_iff,
    run_literal_eq_some_iff] at h
  rcases h with ⟨rfl, rfl⟩ | ⟨-, ⟨rfl, rfl⟩ | ⟨-, ⟨rfl, rfl⟩ | ⟨-, ⟨rfl, rfl⟩ | ⟨-, ⟨rfl, rfl⟩ |
    ⟨-, rfl, rfl⟩⟩⟩⟩⟩
  · exact ⟨.notEqual, rfl, (Option.some.inj hw).symm⟩
  · exact ⟨.lessOrEqual, rfl, (Option.some.inj hw).symm⟩
  · exact ⟨.greaterOrEqual, rfl, (Option.some.inj hw).symm⟩
  · exact ⟨.less, rfl, (Option.some.inj hw).symm⟩
  · exact ⟨.greater, rfl, (Option.some.inj hw).symm⟩
  · exact ⟨.equal, rfl, (Option.some.inj hw).symm⟩

theorem isNumberChar_of_isSpace {c : Char} (hc : isSpace c = true) : isNumberChar c = false := by
  have hpoint : c ≠ '.' := ne_of_class hc (by decide)
  have hminus : c ≠ '-' := ne_of_class hc (by decide)
  simp [isNumberChar, isDigit_of_isSpace hc, hpoint, hminus]

theorem closed_of_stops {operand : Operand} (hword : Stops isWord rest)
    (hnumber : Stops isNumberChar rest) : Closed operand rest := by
  unfold Closed
  split <;> trivial

theorem stops_symbol {q : Char → Bool} (op : CompareOp) (rest : List Char)
    (hq : q '<' = false ∧ q '>' = false ∧ q '=' = false) :
    Stops q (op.symbol.toList ++ rest) := by
  cases op <;> simp [CompareOp.symbol, hq]

/-- Nothing in front of the operator is taken for a part of the operand. -/
theorem closed_before_operator {operand : Operand} {before : List Char} (op : CompareOp)
    (hbefore : Blanks before) (rest : List Char) :
    Closed operand (before ++ (op.symbol.toList ++ rest)) := by
  apply closed_of_stops
  · refine stops_append (fun c hc => isWord_of_isSpace (hbefore c hc)) ?_
    exact stops_symbol op rest (by decide)
  · refine stops_append (fun c hc => isNumberChar_of_isSpace (hbefore c hc)) ?_
    exact stops_symbol op rest (by decide)

theorem stops_operand {operand : Operand} {s : List Char} (hs : operand.Spelled .accepted s)
    (hnames : ∀ name ∈ operand.names, IsName name) (rest : List Char) :
    Stops isSpace (s ++ rest) := by
  obtain ⟨c, tail, rfl, hc, -⟩ := exists_head_of_spelled hs hnames
  exact hc

theorem toCondition?_list (left right : Operand) (op : CompareOp) (v w : Phrase) :
    Phrase.toCondition?
        (Capture.list [operandPhrase left, v, .operator op, w, operandPhrase right]) =
      some (.condition ⟨left, op, right⟩) := by
  cases left <;> cases right <;> rfl

theorem run_comparison {condition : Condition} {s : List Char}
    (hs : condition.Spelled .accepted s) (hnames : ∀ name ∈ condition.names, IsName name)
    (hread : condition.left.Readable ∧ condition.right.Readable)
    (hclosed : Closed condition.right rest) :
    comparison.run (s ++ rest) = some (.condition condition, rest) := by
  cases hs with
  | @mk left right l before after r op hl hbefore hafter hr =>
      obtain ⟨hnamesLeft, hnamesRight⟩ := List.forall_mem_append.mp hnames
      have hright := run_value hr hnamesRight hread.2 hclosed
      -- The operator is not the beginning of a longer one.
      have hhead : ∀ c ∈ (after ++ (r ++ rest)).head?, c ≠ '=' ∧ c ≠ '>' := by
        intro c hc
        cases after with
        | nil =>
            obtain ⟨d, tail, rfl, -, hd⟩ := exists_head_of_spelled hr hnamesRight
            obtain rfl : d = c := Option.some.inj hc
            exact hd
        | cons d after =>
            obtain rfl : d = c := Option.some.inj hc
            have hblank : isSpace d = true := hafter d (by simp)
            exact ⟨ne_of_class hblank (by decide), ne_of_class hblank (by decide)⟩
      have hop := run_operator op hhead
      have hleft := run_value hl hnamesLeft hread.1
        (closed_before_operator op hbefore (after ++ (r ++ rest)))
      obtain ⟨v, hv⟩ := run_optionalWs_append hbefore
        (stops_symbol op (after ++ (r ++ rest)) (by decide))
      obtain ⟨w, hw⟩ := run_optionalWs_append hafter (stops_operand hr hnamesRight rest)
      rw [comparison]
      simp only [List.append_assoc]
      exact run_filterMap_seq (runSeq_cons hleft (runSeq_cons hv (runSeq_cons hop
        (runSeq_cons hw (runSeq_cons hright runSeq_nil))))) (toCondition?_list ..)

theorem stops_condition {condition : Condition} {s : List Char}
    (hs : condition.Spelled .accepted s) (hnames : ∀ name ∈ condition.names, IsName name)
    (rest : List Char) : Stops isSpace (s ++ rest) := by
  cases hs with
  | mk op hl _ _ _ =>
      simp only [List.append_assoc]
      exact stops_operand hl (List.forall_mem_append.mp hnames).1 _

theorem exists_of_run_comparison (h : comparison.run text = some (v, rest)) :
    ∃ (condition : Condition) (s : List Char), condition.Spelled .accepted s ∧
      (∀ name ∈ condition.names, IsName name) ∧
      (condition.left.Readable ∧ condition.right.Readable) ∧ text = s ++ rest ∧
      v = .condition condition := by
  rw [comparison, run_filterMap_seq_eq_some_iff] at h
  simp only [runSeq_cons_eq_some_iff, runSeq_nil_eq_some_iff] at h
  obtain ⟨vs, hv, _, _, _, rfl, hleft, _, _, _, rfl, hws, _, _, _, rfl, hop, _, _, _, rfl,
    hws', _, _, _, rfl, hright, rfl, rfl⟩ := h
  obtain ⟨left, l, hl, hnamesLeft, hreadLeft, rfl, rfl⟩ := exists_of_run_value hleft
  obtain ⟨before, hbefore, -, rfl⟩ := exists_of_run_optionalWs hws
  obtain ⟨op, rfl, rfl⟩ := exists_of_run_operator hop
  obtain ⟨after, hafter, -, rfl⟩ := exists_of_run_optionalWs hws'
  obtain ⟨right, r, hr, hnamesRight, hreadRight, rfl, rfl⟩ := exists_of_run_value hright
  rw [toCondition?_list, Option.some.injEq] at hv
  refine ⟨⟨left, op, right⟩, _, .mk op hl hbefore hafter hr,
    List.forall_mem_append.mpr ⟨hnamesLeft, hnamesRight⟩, ⟨hreadLeft, hreadRight⟩, ?_, hv.symm⟩
  simp only [List.append_assoc]

end TableQuery.Dialect
