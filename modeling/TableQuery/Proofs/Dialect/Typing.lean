import Mathlib.Data.Set.List
import TableQuery.Proofs.Pattern.Typing
import TableQuery.Proofs.Query.Parse

/-!
The kinds of phrases that the rules yield. Phrases of all kinds are in one type, and a
function that builds a part of the syntax tree refuses a list of another length than it
expects, or with a phrase of another kind in it. Each rule is typed by the kind of phrase
it stands for, from the leaves of the grammar to the query, and so no such function ever
refuses what its rule gives it. The one exception is the function for numbers, which
refuses a text that has no numeric value.
-/

namespace TableQuery.Dialect

open Pattern

inductive Rule
  | ws
  | string
  | number
  | boolean
  | null
  | identifier
  | fieldRef
  | fieldList
  | fieldEquality
  | operator
  | value
  | selectClause
  | joinClause
  | comparison
  | whereClause
  | query

namespace Rule

def pattern : Rule → Pattern Phrase
  | ws => Dialect.ws
  | string => Dialect.string
  | number => Dialect.number
  | boolean => Dialect.boolean
  | null => Dialect.null
  | identifier => Dialect.identifier
  | fieldRef => Dialect.fieldRef
  | fieldList => Dialect.fieldList
  | fieldEquality => Dialect.fieldEquality
  | operator => Dialect.operator
  | value => Dialect.value
  | selectClause => Dialect.selectClause
  | joinClause => Dialect.joinClause
  | comparison => Dialect.comparison
  | whereClause => Dialect.whereClause
  | query => Dialect.query

/-- The kind of phrase that a rule stands for. -/
def kind : Rule → Phrase → Prop
  | ws, v | identifier, v => ∃ s, v = .text s
  | string, v => ∃ s, v = .literal (.string s)
  | number, v => ∃ n, v = .literal (.number n)
  | boolean, v => ∃ b, v = .literal (.boolean b)
  | null, v => v = .literal .null
  | fieldRef, v => ∃ field, v = .field field
  | fieldList, v => ∃ fields, v = .fields fields
  | fieldEquality, v => ∃ left right, v = .equality left right
  | operator, v => ∃ op, v = .operator op
  | value, v => (∃ literal, v = .literal literal) ∨ ∃ field, v = .field field
  | selectClause, v => ∃ clause, v = .select clause
  | joinClause, v => ∃ clause, v = .join clause
  | comparison, v | whereClause, v => ∃ condition, v = .condition condition
  | query, v => ∃ tree, v = .query tree

end Rule

/-- Only the function for numbers may refuse a value, and only a text that does not begin
with a number. -/
def Excused (f : Phrase → Option Phrase) (v : Phrase) : Prop :=
  f = Phrase.toNumber? ∧ ∃ s : String, v = .text s ∧ numericPrefix? s.toList = none

theorem typed_token (re : Regex) : Typed Excused (token re) fun v => ∃ s, v = .text s :=
  .regex re.anchored

theorem typed_ws : Typed Excused ws Rule.ws.kind :=
  typed_token _

theorem typed_optionalWs : Typed Excused optionalWs fun v => v = .nothing ∨ Rule.ws.kind v :=
  .optional typed_ws

theorem typed_identifier : Typed Excused identifier Rule.identifier.kind :=
  typed_token _

def IsQuotedText (v : Phrase) : Prop :=
  ∃ quote contents body, isQuote quote = true ∧ QuotedBody quote contents body ∧
    v = .text (String.ofList (quote :: (body ++ [quote])))

def quotedToken : Pattern Phrase :=
  token (.alt (quotedBy '"') (quotedBy '\x27'))

theorem typed_quotedToken : Typed Excused quotedToken IsQuotedText := by
  refine .regex_of_yields fun text v rest h => ?_
  rw [← token, run_token] at h
  obtain ⟨ending, hending, hv⟩ := Option.map_eq_some_iff.mp h
  obtain ⟨quote, contents, body, tail, hquote, hbody, rfl, rfl⟩ :=
    endAt?_string_eq_some_iff.mp hending
  have hcut : quote :: (body ++ quote :: tail) = (quote :: (body ++ [quote])) ++ tail := by simp
  rw [hcut, Cursor.upTo_place] at hv
  exact ⟨quote, contents, body, hquote, hbody, (Prod.mk.inj hv).1.symm⟩

theorem typed_string : Typed Excused string Rule.string.kind := by
  refine typed_quotedToken.filterMap ?_
  rintro _ ⟨quote, contents, body, -, hbody, rfl⟩
  exact ⟨_, toString?_text hbody, _, rfl⟩

/-- The kind of value is settled, and whether there is one depends on the text. -/
theorem typed_number : Typed Excused number Rule.number.kind := by
  refine (typed_token _).filterMap_of_excused ?_ ?_
  · rintro _ ⟨s, rfl⟩
    cases h : numericPrefix? s.toList with
    | none => exact .inr ⟨rfl, s, rfl, h⟩
    | some n => exact .inl ⟨.literal (.number n), by rw [Phrase.toNumber?, h, Option.map_some]⟩
  · rintro _ w ⟨s, rfl⟩ hw
    obtain ⟨n, -, rfl⟩ := Option.map_eq_some_iff.mp hw
    exact ⟨n, rfl⟩

theorem typed_boolean : Typed Excused boolean Rule.boolean.kind := by
  refine (typed_token _).filterMap ?_
  rintro _ ⟨s, rfl⟩
  exact ⟨_, rfl, _, rfl⟩

theorem typed_null : Typed Excused null Rule.null.kind :=
  (typed_token _).filterMap fun _ _ => ⟨_, rfl, rfl⟩

theorem typed_fieldRef : Typed Excused fieldRef Rule.fieldRef.kind := by
  refine .filterMap (.seq <| .cons typed_identifier <| .cons (.literal ".") <|
    .cons typed_identifier .nil) ?_
  rintro _ ⟨_, rfl, _ | ⟨⟨table, rfl⟩, _ | ⟨-, _ | ⟨⟨column, rfl⟩, _ | _⟩⟩⟩⟩
  exact ⟨_, rfl, ⟨table, column⟩, rfl⟩

theorem typed_fieldList : Typed Excused fieldList Rule.fieldList.kind := by
  have hcomma : Typed Excused (.seq [optionalWs, .literal ",", optionalWs]) _ :=
    .seq <| .cons typed_optionalWs <| .cons (.literal ",") <| .cons typed_optionalWs .nil
  refine .any ⟨?_, ?_⟩
  · exact (Typed.literal "*").filterMap fun _ _ => ⟨_, rfl, .wildcard, rfl⟩
  · refine .filterMap (typed_fieldRef.rep fun _ h => Option.some.inj h ▸ hcomma) ?_
    rintro _ ⟨vs, rfl, -, hvs⟩
    obtain ⟨fields, rfl⟩ : vs ∈ Set.range (List.map Phrase.field) := by
      rw [Set.range_list_map]
      rintro v hv
      obtain ⟨field, rfl⟩ := hvs v hv
      exact ⟨field, rfl⟩
    exact ⟨_, toFieldList?_list fields, .fields fields, rfl⟩

theorem typed_fieldEquality : Typed Excused fieldEquality Rule.fieldEquality.kind := by
  refine .filterMap (.seq <| .cons typed_fieldRef <| .cons typed_optionalWs <|
    .cons (.literal "=") <| .cons typed_optionalWs <| .cons typed_fieldRef .nil) ?_
  rintro _ ⟨_, rfl, _ | ⟨⟨left, rfl⟩, _ | ⟨-, _ | ⟨-, _ | ⟨-, _ | ⟨⟨right, rfl⟩, _ | _⟩⟩⟩⟩⟩⟩
  exact ⟨_, rfl, left, right, rfl⟩

theorem typed_symbol (op : CompareOp) :
    Typed Excused (.literal op.symbol) fun v => ∃ op : CompareOp, v = .text op.symbol :=
  (Typed.literal op.symbol).mono fun _ hv => ⟨op, hv⟩

theorem typed_operator : Typed Excused operator Rule.operator.kind := by
  refine .filterMap (.any ⟨typed_symbol .notEqual, typed_symbol .lessOrEqual,
    typed_symbol .greaterOrEqual, typed_symbol .less, typed_symbol .greater,
    typed_symbol .equal⟩) ?_
  rintro _ ⟨op, rfl⟩
  exact ⟨.operator op, by cases op <;> rfl, op, rfl⟩

theorem typed_value : Typed Excused value Rule.value.kind :=
  .any ⟨typed_string.mono fun _ ⟨_, hv⟩ => .inl ⟨_, hv⟩,
    typed_number.mono fun _ ⟨_, hv⟩ => .inl ⟨_, hv⟩,
    typed_boolean.mono fun _ ⟨_, hv⟩ => .inl ⟨_, hv⟩,
    typed_null.mono fun _ hv => .inl ⟨_, hv⟩,
    typed_fieldRef.mono fun _ hv => .inr hv⟩

theorem exists_operand {v : Phrase} (h : Rule.value.kind v) :
    ∃ operand, v.operand? = some operand := by
  rcases h with ⟨literal, rfl⟩ | ⟨field, rfl⟩
  · exact ⟨.literal literal, rfl⟩
  · exact ⟨.field field, rfl⟩

theorem typed_comparison : Typed Excused comparison Rule.comparison.kind := by
  refine .filterMap (.seq <| .cons typed_value <| .cons typed_optionalWs <|
    .cons typed_operator <| .cons typed_optionalWs <| .cons typed_value .nil) ?_
  rintro _ ⟨_, rfl, _ | ⟨hleft, _ | ⟨-, _ | ⟨⟨op, rfl⟩, _ | ⟨-, _ | ⟨hright, _ | _⟩⟩⟩⟩⟩⟩
  obtain ⟨left, hleft⟩ := exists_operand hleft
  obtain ⟨right, hright⟩ := exists_operand hright
  refine ⟨.condition ⟨left, op, right⟩, ?_, _, rfl⟩
  change (Option.bind _ fun left => Option.bind _ fun right => some _) = _
  rw [hleft, hright]
  rfl

/-! ### Clauses -/

theorem typed_selectClause : Typed Excused selectClause Rule.selectClause.kind := by
  refine .filterMap (.seq <| .cons (typed_token _) <| .cons typed_ws <| .cons typed_fieldList <|
    .cons typed_ws <| .cons (typed_token _) <| .cons typed_ws <| .cons typed_identifier <|
    .cons typed_optionalWs .nil) ?_
  rintro _ ⟨_, rfl, _ | ⟨-, _ | ⟨-, _ | ⟨⟨fields, rfl⟩, _ | ⟨-, _ | ⟨-, _ | ⟨-,
    _ | ⟨⟨source, rfl⟩, _ | ⟨-, _ | _⟩⟩⟩⟩⟩⟩⟩⟩⟩
  exact ⟨_, rfl, ⟨fields, source⟩, rfl⟩

theorem typed_joinClause : Typed Excused joinClause Rule.joinClause.kind := by
  refine .filterMap (.seq <| .cons (typed_token _) <| .cons typed_ws <| .cons typed_identifier <|
    .cons typed_ws <| .cons (typed_token _) <| .cons typed_ws <| .cons typed_fieldEquality <|
    .cons typed_optionalWs .nil) ?_
  rintro _ ⟨_, rfl, _ | ⟨-, _ | ⟨-, _ | ⟨⟨table, rfl⟩, _ | ⟨-, _ | ⟨-, _ | ⟨-,
    _ | ⟨⟨left, right, rfl⟩, _ | ⟨-, _ | _⟩⟩⟩⟩⟩⟩⟩⟩⟩
  exact ⟨_, rfl, ⟨table, left, right⟩, rfl⟩

theorem typed_whereClause : Typed Excused whereClause Rule.whereClause.kind := by
  refine .filterMap (.seq <| .cons (typed_token _) <| .cons typed_ws <|
    .cons typed_comparison <| .cons typed_optionalWs .nil) ?_
  rintro _ ⟨_, rfl, _ | ⟨-, _ | ⟨-, _ | ⟨⟨condition, rfl⟩, _ | ⟨-, _ | _⟩⟩⟩⟩⟩
  exact ⟨_, rfl, condition, rfl⟩

theorem typed_joins : Typed Excused (.optional (.rep joinClause (some optionalWs)))
    fun v => ∃ joins, v.joins? = some joins := by
  have hseparator : ∀ p ∈ some optionalWs, Typed Excused p _ :=
    fun _ h => Option.some.inj h ▸ typed_optionalWs
  refine (Typed.optional (typed_joinClause.rep hseparator)).mono ?_
  rintro _ (rfl | ⟨vs, rfl, -, hvs⟩)
  · exact ⟨[], rfl⟩
  · obtain ⟨joins, rfl⟩ : vs ∈ Set.range (List.map Phrase.join) := by
      rw [Set.range_list_map]
      rintro v hv
      obtain ⟨join, rfl⟩ := hvs v hv
      exact ⟨join, rfl⟩
    exact ⟨joins, mapM_join?_map joins⟩

theorem typed_restriction : Typed Excused (.optional whereClause)
    fun v => ∃ condition, v.condition? = some condition := by
  refine (Typed.optional typed_whereClause).mono ?_
  rintro _ (rfl | ⟨condition, rfl⟩)
  · exact ⟨none, rfl⟩
  · exact ⟨some condition, rfl⟩

theorem typed_query : Typed Excused query Rule.query.kind := by
  refine .filterMap (.seq <| .cons typed_selectClause <| .cons typed_optionalWs <|
    .cons typed_joins <| .cons typed_restriction <| .cons typed_optionalWs .nil) ?_
  rintro _ ⟨_, rfl, _ | ⟨⟨select, rfl⟩, _ | ⟨-, _ | ⟨⟨joins, hjoins⟩,
    _ | ⟨⟨condition, hcondition⟩, _ | ⟨-, _ | _⟩⟩⟩⟩⟩⟩
  exact ⟨_, toQuery?_list hjoins hcondition select _ _, _, rfl⟩

theorem typed_rule (rule : Rule) : Typed Excused rule.pattern rule.kind := by
  cases rule with
  | ws => exact typed_ws
  | string => exact typed_string
  | number => exact typed_number
  | boolean => exact typed_boolean
  | null => exact typed_null
  | identifier => exact typed_identifier
  | fieldRef => exact typed_fieldRef
  | fieldList => exact typed_fieldList
  | fieldEquality => exact typed_fieldEquality
  | operator => exact typed_operator
  | value => exact typed_value
  | selectClause => exact typed_selectClause
  | joinClause => exact typed_joinClause
  | comparison => exact typed_comparison
  | whereClause => exact typed_whereClause
  | query => exact typed_query

/-- Whatever a rule matches, at whatever offset of whatever text, is a phrase of the kind
it stands for, and a function that is applied anywhere in the rule accepts what the pattern
under it yields there. Only the function for numbers refuses a text, one that begins with
no number. The function for strings always gets a text between two quotes of one byte each,
and what is read as a query is a query: a text is refused as none only where the rule for
queries does not match. -/
theorem rules_typed (rule : Rule) (input : String) (position : Nat) :
    (∀ m, rule.pattern.matchAt? input position = some m → rule.kind m.value) ∧
    (∀ inner f, rule.pattern.Applies inner f →
      ∀ m, inner.matchAt? input position = some m →
        (∃ v, f m.value = some v) ∨
          f = Phrase.toNumber? ∧ ∃ s : String, m.value = .text s ∧ numericPrefix? s.toList = none) ∧
    (∀ inner, Dialect.string = .filterMap inner Phrase.toString? →
      ∀ m, inner.matchAt? input position = some m →
        ∃ quote body, (quote = '"' ∨ quote = '\x27') ∧
          m.value = .text (String.ofList (quote :: (body ++ [quote])))) ∧
    (Query.parse input = .error .invalidQuery ↔ Dialect.query.matchAt? input 0 = none) := by
  have hrule := typed_rule rule
  refine ⟨fun m hm => hrule.yields.matchAt? hm, ?_, ?_, ?_⟩
  · intro inner f happlies m hm
    exact (hrule.accepts inner f happlies).matchAt? hm
  · intro inner hstring m hm
    obtain ⟨rfl, -⟩ := Pattern.filterMap.inj hstring
    obtain ⟨quote, -, body, hquote, -, hvalue⟩ := typed_quotedToken.yields.matchAt? hm
    simp only [isQuote, Bool.or_eq_true, decide_eq_true_eq] at hquote
    exact ⟨quote, body, hquote, hvalue⟩
  · rw [Query.parse_eq_invalidQuery_iff, Query.matchAt?_zero, Option.map_eq_none_iff]

/-- Deep in the clause, between two names; and a text that is a number only in its
characters. -/
theorem rules_typed_samples :
    let sides : Pattern Phrase := .seq [fieldRef, optionalWs, .literal "=", optionalWs, fieldRef]
    let digits : Pattern Phrase := token (.plus true
      (.chars ⟨[.inside .digit, .range '.' '.', .range '-' '-'], false, false⟩))
    (∃ m, joinClause.matchAt? "JOIN b ON a.x =b.y" 0 = some m ∧ ∃ join, m.value = .join join) ∧
      (joinClause.Applies sides Phrase.toEquality? ∧
        ∃ m, sides.matchAt? "JOIN b ON a.x =b.y" 10 = some m ∧
          ∃ v, Phrase.toEquality? m.value = some v) ∧
      number.Applies digits Phrase.toNumber? ∧
        ∃ m, digits.matchAt? "x--1" 1 = some m ∧ Phrase.toNumber? m.value = none := by
  intro sides digits
  have hclause : (joinClause.matchAt? "JOIN b ON a.x =b.y" 0).map Match.stop = some 18 := by
    decide +kernel
  obtain ⟨clause, hclause, -⟩ := Option.map_eq_some_iff.mp hclause
  have hsides : (sides.matchAt? "JOIN b ON a.x =b.y" 10).map Match.stop = some 18 := by
    decide +kernel
  obtain ⟨m, hsides, -⟩ := Option.map_eq_some_iff.mp hsides
  have happlies : joinClause.Applies sides Phrase.toEquality? :=
    .filterMap (.part (show fieldEquality ∈ _ by simp) .here)
  have hdigits : ((digits.matchAt? "x--1" 1).map fun m => (Phrase.toNumber? m.value).isNone) =
      some true := by
    decide +kernel
  obtain ⟨run, hrun, hrefused⟩ := Option.map_eq_some_iff.mp hdigits
  refine ⟨⟨clause, hclause, (rules_typed .joinClause _ 0).1 clause hclause⟩,
    ⟨happlies, m, hsides, ?_⟩, .here, run, hrun, Option.isNone_iff_eq_none.mp hrefused⟩
  refine ((rules_typed .joinClause _ 10).2.1 sides _ happlies m hsides).resolve_right ?_
  -- The other function takes a text.
  rintro ⟨hsame, -⟩
  have hone := congrArg Option.isSome (congrFun hsame (.text "1"))
  exact absurd hone (by decide)

end TableQuery.Dialect
