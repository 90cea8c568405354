import TableQuery.Proofs.Dialect.Tokens

/-!
What the rule for strings takes. Inside a string a backslash belongs to the
character after it, so a text has at most one place where a string that begins
at its start can end, and a greedy star finds it.
-/

namespace TableQuery.Dialect

open Text Pattern Regex Cursor

variable {text rest : List Char} {v : Phrase}

section Quoted

variable {quote : Char} {k : Cursor → Option Cursor} {p : Option Char}

/-- One character of the inside of a string, or a backslash and one character. -/
def quotedPart (quote : Char) : Regex :=
  .alt (.seq (.chars (.singleton '\\')) (.chars .anyOnLine))
    (.chars ⟨[.range quote quote, .range '\\' '\\'], true, false⟩)

theorem quotedPart_contains (c : Char) :
    (⟨[.range quote quote, .range '\\' '\\'], true, false⟩ : CharSet).contains c =
      decide (c ≠ quote ∧ c ≠ '\\') := by
  simp [CharSet.contains]

theorem run_quotedPart_nil : (quotedPart quote).run k (place p []) = none := rfl

theorem run_quotedPart_quote (hq : quote ≠ '\\') (text : List Char) :
    (quotedPart quote).run k (place p (quote :: text)) = none := by
  simp [quotedPart, Regex.run, quotedPart_contains, hq]

theorem run_quotedPart_plain {c : Char} (hc : c ≠ quote) (hb : c ≠ '\\') (text : List Char) :
    (quotedPart quote).run k (place p (c :: text)) = k (place (some c) text) := by
  simp [quotedPart, Regex.run, quotedPart_contains, hc, hb]

theorem run_quotedPart_backslash (text : List Char) :
    (quotedPart quote).run k (place p ('\\' :: text)) =
      match text with
      | [] => none
      | c :: text => if c = '\n' then none else k (place (some c) text) := by
  cases text with
  | nil => simp [quotedPart, Regex.run, quotedPart_contains]
  | cons c text =>
      by_cases hc : c = '\n' <;> simp [quotedPart, Regex.run, quotedPart_contains, hc]

def closing (quote : Char) (cursor : Cursor) : Option Cursor :=
  (chars (.singleton quote)).run some cursor

theorem closing_cons (c : Char) (text : List Char) :
    closing quote (place p (c :: text)) =
      if c = quote then some (place (some c) text) else none := by
  rw [closing, run_chars_cons]
  simp

theorem run_star_quotedPart_plain {c : Char} (hc : c ≠ quote) (hb : c ≠ '\\') (text : List Char) :
    (star true (quotedPart quote)).run (closing quote) (place p (c :: text)) =
      (star true (quotedPart quote)).run (closing quote) (place (some c) text) := by
  rw [run_star, run_quotedPart_plain hc hb, closing_cons, if_neg hc, Option.or_none]
  simp

theorem run_star_quotedPart_escaped {c : Char} (hq : quote ≠ '\\') (hc : c ≠ '\n')
    (text : List Char) :
    (star true (quotedPart quote)).run (closing quote) (place p ('\\' :: c :: text)) =
      (star true (quotedPart quote)).run (closing quote) (place (some c) text) := by
  have hlt : (place (some c) text).remaining < (place p ('\\' :: c :: text)).remaining := by
    simp only [remaining_place, List.length_cons]
    omega
  rw [run_star, run_quotedPart_backslash, closing_cons, if_neg (Ne.symm hq), Option.or_none]
  simp only [if_neg hc, if_pos hlt]

theorem run_star_quotedPart_quote (hq : quote ≠ '\\') (text : List Char) :
    (star true (quotedPart quote)).run (closing quote) (place p (quote :: text)) =
      some (place (some quote) text) := by
  rw [run_star, run_quotedPart_quote hq, closing_cons, if_pos rfl, Option.none_or]

theorem run_star_quotedPart_complete {contents body : List Char} (hq : quote ≠ '\\')
    (h : QuotedBody quote contents body) :
    (star true (quotedPart quote)).run (closing quote) (place p (body ++ quote :: rest)) =
      some (place (some quote) rest) := by
  induction h generalizing p with
  | nil => exact run_star_quotedPart_quote hq rest
  | plain hc hb _ ih =>
      rw [List.cons_append, run_star_quotedPart_plain hc hb]
      exact ih
  | escaped hc _ ih =>
      rw [List.cons_append, List.cons_append, run_star_quotedPart_escaped hq hc]
      exact ih

/-- The star goes on as long as it can and so stops at the first quote that is
not escaped. -/
theorem run_star_quotedPart_sound (hq : quote ≠ '\\') {ending : Cursor}
    (h : (star true (quotedPart quote)).run (closing quote) (place p text) = some ending) :
    ∃ contents body rest, QuotedBody quote contents body ∧ text = body ++ quote :: rest ∧
      ending = place (some quote) rest := by
  -- Two characters are taken at once where there is a backslash, so the induction
  -- is on the length.
  induction hlength : text.length using Nat.strongRecOn generalizing text p with
  | ind n ih =>
      subst hlength
      obtain _ | ⟨c, text⟩ := text
      · rw [run_star, run_quotedPart_nil, closing, run_chars_nil] at h
        simp at h
      · by_cases hc : c = quote
        · subst hc
          rw [run_star_quotedPart_quote hq, Option.some.injEq] at h
          exact ⟨[], [], text, .nil, rfl, h.symm⟩
        · by_cases hb : c = '\\'
          · subst hb
            obtain _ | ⟨d, text⟩ := text
            · rw [run_star, run_quotedPart_backslash, closing_cons, if_neg hc] at h
              simp at h
            · by_cases hd : d = '\n'
              · rw [run_star, run_quotedPart_backslash, closing_cons, if_neg hc] at h
                simp [hd] at h
              · have hlt : text.length < ('\\' :: d :: text).length := by
                  simp only [List.length_cons]
                  omega
                rw [run_star_quotedPart_escaped hq hd] at h
                obtain ⟨contents, body, rest, hbody, rfl, rfl⟩ := ih _ hlt h rfl
                exact ⟨d :: contents, '\\' :: d :: body, rest, .escaped hd hbody, rfl, rfl⟩
          · rw [run_star_quotedPart_plain hc hb] at h
            obtain ⟨contents, body, rest, hbody, rfl, rfl⟩ := ih _ (by simp) h rfl
            exact ⟨c :: contents, c :: body, rest, .plain hc hb hbody, rfl, rfl⟩

end Quoted

theorem unescape_of_quotedBody {quote : Char} {contents body : List Char}
    (h : QuotedBody quote contents body) : unescape body = contents := by
  induction h with
  | nil => rfl
  | @plain c contents body _ hb _ ih =>
      have hcons : unescape (c :: body) = c :: unescape body := by
        rw [unescape]
        · rintro rfl
          exact fun _ => hb rfl
        · rintro d rest rfl
          exact fun _ => hb rfl
      rw [hcons, ih]
  | escaped _ _ ih => rw [unescape, ih]

theorem toString?_text {quote : Char} {contents body : List Char}
    (h : QuotedBody quote contents body) :
    Phrase.toString? (.text (String.ofList (quote :: (body ++ [quote])))) =
      some (.literal (.string (String.ofList contents))) := by
  rw [Phrase.toString?, String.toList_ofList, stringValue?, List.dropLast_concat,
    unescape_of_quotedBody h]
  simp

theorem run_quotedBy_eq_some_iff (quote : Char) (hq : quote ≠ '\\') (text : List Char)
    (ending : Cursor) :
    (quotedBy quote).run some (place none text) = some ending ↔
      ∃ contents body rest, QuotedBody quote contents body ∧
        text = quote :: (body ++ quote :: rest) ∧ ending = place (some quote) rest := by
  rw [quotedBy, run_sequence]
  simp only [List.foldr_cons, List.foldr_nil]
  cases text with
  | nil => simp
  | cons c text =>
      rw [run_chars_cons, singleton_contains]
      by_cases hc : c = quote
      · subst hc
        rw [if_pos (by simp)]
        constructor
        · intro h
          obtain ⟨contents, body, rest, hbody, rfl, hending⟩ := run_star_quotedPart_sound hq h
          exact ⟨contents, body, rest, hbody, rfl, hending⟩
        · rintro ⟨contents, body, rest, hbody, htext, rfl⟩
          rw [(List.cons.inj htext).2]
          exact run_star_quotedPart_complete hq hbody
      · rw [if_neg (by simpa using hc)]
        constructor
        · simp
        · rintro ⟨contents, body, rest, -, htext, -⟩
          exact absurd (List.cons.inj htext).1 hc

theorem endAt?_string_eq_some_iff {ending : Cursor} :
    (Regex.alt (quotedBy '"') (quotedBy '\x27')).endAt? (place none text) = some ending ↔
      ∃ quote contents body rest, isQuote quote = true ∧ QuotedBody quote contents body ∧
        text = quote :: (body ++ quote :: rest) ∧ ending = place (some quote) rest := by
  have hdouble := run_quotedBy_eq_some_iff '"' (by decide) text ending
  have hsingle := run_quotedBy_eq_some_iff '\x27' (by decide) text ending
  rw [endAt?_eq_run rfl, run_alt, Option.or_eq_some_iff]
  constructor
  · rintro (h | ⟨-, h⟩)
    · obtain ⟨contents, body, rest, h⟩ := hdouble.mp h
      exact ⟨'"', contents, body, rest, rfl, h⟩
    · obtain ⟨contents, body, rest, h⟩ := hsingle.mp h
      exact ⟨'\x27', contents, body, rest, rfl, h⟩
  · rintro ⟨quote, contents, body, rest, hquote, hbody, rfl, rfl⟩
    simp only [isQuote, Bool.or_eq_true, decide_eq_true_eq] at hquote
    rcases hquote with rfl | rfl
    · exact .inl (hdouble.mpr ⟨contents, body, rest, hbody, rfl, rfl⟩)
    · refine .inr ⟨?_, hsingle.mpr ⟨contents, body, rest, hbody, rfl, rfl⟩⟩
      rw [Option.eq_none_iff_forall_ne_some]
      intro other h
      obtain ⟨_, _, _, -, htext, -⟩ := (run_quotedBy_eq_some_iff _ (by decide) ..).mp h
      exact absurd (List.cons.inj htext).1 (by decide)

theorem run_string_eq_some_iff :
    string.run text = some (v, rest) ↔
      ∃ contents s, Lexicon.accepted.string contents s ∧ text = s ++ rest ∧
        v = .literal (.string contents) := by
  have hcut (quote : Char) (body rest : List Char) :
      quote :: (body ++ quote :: rest) = (quote :: (body ++ [quote])) ++ rest := by simp
  rw [string, run_filterMap_eq_some_iff]
  simp only [run_token, Option.map_eq_some_iff, Prod.mk.injEq, endAt?_string_eq_some_iff]
  constructor
  · rintro ⟨w, ⟨ending, ⟨quote, contents, body, tail, hquote, hbody, rfl, rfl⟩, rfl, rfl⟩, hv⟩
    rw [hcut, upTo_place, toString?_text hbody, Option.some.injEq] at hv
    refine ⟨String.ofList contents, _, ⟨quote, body, hquote, ?_, rfl⟩, hcut quote body tail,
      hv.symm⟩
    rwa [String.toList_ofList]
  · rintro ⟨contents, s, ⟨quote, body, hquote, hbody, rfl⟩, rfl, rfl⟩
    refine ⟨_, ⟨_, ⟨quote, contents.toList, body, rest, hquote, hbody, (hcut ..).symm, rfl⟩,
      rfl, rfl⟩, ?_⟩
    rw [upTo_place, toString?_text hbody, String.ofList_toList]

end TableQuery.Dialect
