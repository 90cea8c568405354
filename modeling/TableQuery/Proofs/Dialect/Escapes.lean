import TableQuery.Proofs.Dialect.Strings
import TableQuery.Proofs.Pattern.Remainders

/-!
The ways to write a string down. A character may stand between the quotes as it is,
unless it is the quote or a backslash, and any character may stand after a backslash.
What the rule for strings takes is always such a spelling, and it stands for the
characters that were spelled. The other direction has an exception: a text in which
a line feed stands after a backslash is a spelling, and the rule does not match it.
-/

namespace TableQuery.Dialect

open Text Pattern

/-- A character as it is written between quotes. -/
structure QuotedChar where
  char : Char
  escaped : Bool
deriving DecidableEq, Repr

namespace QuotedChar

def text (part : QuotedChar) : List Char :=
  if part.escaped then ['\\', part.char] else [part.char]

/-- On its own a character must not end the string or begin an escape; after a
backslash every character may stand. -/
def Fits (quote : Char) (part : QuotedChar) : Prop :=
  part.escaped = true ∨ part.char ≠ quote ∧ part.char ≠ '\\'

instance (quote : Char) (part : QuotedChar) : Decidable (part.Fits quote) :=
  inferInstanceAs (Decidable (_ ∨ _))

theorem fits_plain_iff {quote c : Char} :
    (⟨c, false⟩ : QuotedChar).Fits quote ↔ c ≠ quote ∧ c ≠ '\\' := by
  simp [Fits]

theorem fits_escaped (quote c : Char) : (⟨c, true⟩ : QuotedChar).Fits quote :=
  .inl rfl

end QuotedChar

structure StringToken where
  quote : Char
  parts : List QuotedChar
  isQuote_quote : isQuote quote = true
  fits : ∀ part ∈ parts, part.Fits quote

namespace StringToken

def contents (token : StringToken) : String :=
  String.ofList (token.parts.map QuotedChar.char)

def text (token : StringToken) : List Char :=
  token.quote :: (token.parts.flatMap QuotedChar.text ++ [token.quote])

/-- Somewhere a line feed stands after a backslash. -/
def EscapesLineFeed (token : StringToken) : Prop :=
  ⟨'\n', true⟩ ∈ token.parts

instance (token : StringToken) : Decidable token.EscapesLineFeed :=
  inferInstanceAs (Decidable (_ ∈ _))

theorem quote_ne_backslash (token : StringToken) : token.quote ≠ '\\' :=
  ne_of_class token.isQuote_quote (by decide)

theorem text_append (token : StringToken) (rest : List Char) :
    token.text ++ rest =
      token.quote :: (token.parts.flatMap QuotedChar.text ++ token.quote :: rest) := by
  simp [text]

end StringToken

section Parts

variable {quote : Char} {parts others : List QuotedChar}

/-- A text between quotes can be taken apart in one way only: a backslash belongs to
the character after it, and the first quote that is on its own ends the text. -/
theorem parts_unique (hquote : quote ≠ '\\')
    (hparts : ∀ part ∈ parts, part.Fits quote) (hothers : ∀ part ∈ others, part.Fits quote)
    {rest tail : List Char}
    (h : parts.flatMap QuotedChar.text ++ quote :: rest =
      others.flatMap QuotedChar.text ++ quote :: tail) : parts = others := by
  induction parts generalizing others with
  | nil =>
      obtain _ | ⟨⟨d, _ | _⟩, others⟩ := others
      · rfl
      · have hd := QuotedChar.fits_plain_iff.mp (hothers _ List.mem_cons_self)
        exact absurd (List.cons.inj h).1.symm hd.1
      · exact absurd (List.cons.inj h).1 hquote
  | cons part parts ih =>
      obtain ⟨hpart, hrest⟩ := List.forall_mem_cons.mp hparts
      obtain _ | ⟨other, others⟩ := others
      · obtain ⟨c, _ | _⟩ := part
        · exact absurd (List.cons.inj h).1 (QuotedChar.fits_plain_iff.mp hpart).1
        · exact absurd (List.cons.inj h).1.symm hquote
      · obtain ⟨hother, htail⟩ := List.forall_mem_cons.mp hothers
        obtain ⟨⟨c, _ | _⟩, ⟨d, _ | _⟩⟩ := part, other
        · obtain ⟨rfl, htext⟩ := List.cons.inj h
          rw [ih hrest htail htext]
        · exact absurd (List.cons.inj h).1 (QuotedChar.fits_plain_iff.mp hpart).2
        · exact absurd (List.cons.inj h).1.symm (QuotedChar.fits_plain_iff.mp hother).2
        · obtain ⟨rfl, htext⟩ := List.cons.inj (List.cons.inj h).2
          rw [ih hrest htail htext]

theorem quotedBody_flatMap
    (hparts : ∀ part ∈ parts, part.Fits quote)
    (hfeed : ⟨'\n', true⟩ ∉ parts) :
    QuotedBody quote (parts.map QuotedChar.char) (parts.flatMap QuotedChar.text) := by
  induction parts with
  | nil => exact .nil
  | cons part parts ih =>
      obtain ⟨hpart, hparts⟩ := List.forall_mem_cons.mp hparts
      obtain ⟨hne, hfeed⟩ := not_or.mp (mt List.mem_cons.mpr hfeed)
      have hrest := ih hparts hfeed
      obtain ⟨c, _ | _⟩ := part
      · obtain ⟨hc, hb⟩ := QuotedChar.fits_plain_iff.mp hpart
        exact .plain hc hb hrest
      · refine .escaped ?_ hrest
        rintro rfl
        exact hne rfl

theorem exists_parts_of_quotedBody {s body : List Char} (h : QuotedBody quote s body) :
    ∃ parts : List QuotedChar,
      (∀ part ∈ parts, part.Fits quote) ∧
        ⟨'\n', true⟩ ∉ parts ∧ s = parts.map QuotedChar.char ∧
        body = parts.flatMap QuotedChar.text := by
  induction h with
  | nil => exact ⟨[], by simp, by simp, rfl, rfl⟩
  | @plain c s body hc hb _ ih =>
      obtain ⟨parts, hparts, hfeed, rfl, rfl⟩ := ih
      refine ⟨⟨c, false⟩ :: parts, ?_, ?_, rfl, rfl⟩
      · exact List.forall_mem_cons.mpr ⟨QuotedChar.fits_plain_iff.mpr ⟨hc, hb⟩, hparts⟩
      · simpa using hfeed
  | @escaped c s body hc _ ih =>
      obtain ⟨parts, hparts, hfeed, rfl, rfl⟩ := ih
      refine ⟨⟨c, true⟩ :: parts, ?_, ?_, rfl, rfl⟩
      · exact List.forall_mem_cons.mpr ⟨QuotedChar.fits_escaped quote c, hparts⟩
      · simpa [Ne.symm hc] using hfeed

end Parts

theorem StringToken.eq_of_text_append {a b : StringToken} {rest tail : List Char}
    (h : a.text ++ rest = b.text ++ tail) : a = b := by
  rw [text_append, text_append] at h
  obtain ⟨hquote, hbody⟩ := List.cons.inj h
  rw [← hquote] at hbody
  have hparts := parts_unique a.quote_ne_backslash a.fits (hquote ▸ b.fits) hbody
  obtain ⟨⟩ := a
  obtain ⟨⟩ := b
  obtain rfl := hquote
  obtain rfl := hparts
  rfl

theorem accepted_string_iff {contents : String} {s : List Char} :
    Lexicon.accepted.string contents s ↔
      ∃ token : StringToken, ¬token.EscapesLineFeed ∧ s = token.text ∧
        contents = token.contents := by
  constructor
  · rintro ⟨quote, body, hquote, hbody, rfl⟩
    obtain ⟨parts, hparts, hfeed, hs, rfl⟩ := exists_parts_of_quotedBody hbody
    refine ⟨⟨quote, parts, hquote, hparts⟩, hfeed, rfl, ?_⟩
    rw [StringToken.contents, ← hs, String.ofList_toList]
  · rintro ⟨token, hfeed, rfl, rfl⟩
    refine ⟨token.quote, _, token.isQuote_quote, ?_, rfl⟩
    rw [StringToken.contents, String.toList_ofList]
    exact quotedBody_flatMap token.fits hfeed

theorem run_string_eq_some_iff_token {text rest : List Char} {v : Phrase} :
    string.run text = some (v, rest) ↔
      ∃ token : StringToken, ¬token.EscapesLineFeed ∧ text = token.text ++ rest ∧
        v = .literal (.string token.contents) := by
  rw [run_string_eq_some_iff]
  simp only [accepted_string_iff]
  constructor
  · rintro ⟨_, _, ⟨token, hfeed, rfl, rfl⟩, htext, hv⟩
    exact ⟨token, hfeed, htext, hv⟩
  · rintro ⟨token, hfeed, htext, hv⟩
    exact ⟨_, _, ⟨token, hfeed, rfl, rfl⟩, htext, hv⟩

theorem run_string_token (token : StringToken) (rest : List Char) :
    string.run (token.text ++ rest) =
      if token.EscapesLineFeed then none
      else some (.literal (.string token.contents), rest) := by
  split
  · rename_i hfeed
    rw [Option.eq_none_iff_forall_ne_some]
    rintro ⟨v, tail⟩ h
    obtain ⟨other, hother, htext, -⟩ := run_string_eq_some_iff_token.mp h
    exact hother (StringToken.eq_of_text_append htext ▸ hfeed)
  · rename_i hfeed
    exact run_string_eq_some_iff_token.mpr ⟨token, hfeed, rfl, rfl⟩

/-- Wherever a string is spelled in a text, the rule reads that string there, with both
its quotes and nothing of what follows, unless a line feed is escaped in it: then nothing
is read. Whatever the rule reads is one of the spellings without an escaped line feed. -/
theorem string_matches_spellings (input : String) (position : Nat) :
    (∀ (token : StringToken) (before following : String),
      input = before ++ String.ofList token.text ++ following →
        before.utf8ByteSize = position →
          string.matchAt? input position =
            if token.EscapesLineFeed then none
            else some ⟨.literal (.string token.contents), position + byteLength token.text⟩) ∧
    ∀ m : Match Phrase, string.matchAt? input position = some m →
      ∃ (token : StringToken) (before following : String), ¬token.EscapesLineFeed ∧
        input = before ++ String.ofList token.text ++ following ∧
        before.utf8ByteSize = position ∧
        m = ⟨.literal (.string token.contents), position + byteLength token.text⟩ := by
  constructor
  · rintro token before following rfl hposition
    have hstart : dropBytes? position (before ++ String.ofList token.text ++ following).toList =
        some (token.text ++ following.toList) := by
      refine dropBytes?_eq_some_iff.mpr ⟨before.toList, ?_, ?_⟩
      · rw [String.toList_append, String.toList_append, String.toList_ofList, List.append_assoc]
      · rw [byteLength_toList, hposition]
    rw [matchAt?_eq_map_run string hstart, run_string_token]
    split
    · rfl
    · simp [← Nat.add_assoc]
  · intro m h
    obtain ⟨text, htext⟩ := exists_rest_of_matchAt? h
    rw [matchAt?_eq_map_run string htext] at h
    obtain ⟨⟨v, rest⟩, hrun, rfl⟩ := Option.map_eq_some_iff.mp h
    obtain ⟨token, hfeed, rfl, rfl⟩ := run_string_eq_some_iff_token.mp hrun
    obtain ⟨before, hinput, hbefore⟩ := dropBytes?_eq_some_iff.mp htext
    refine ⟨token, String.ofList before, String.ofList rest, hfeed, ?_, ?_, ?_⟩
    · rw [← String.ofList_append, ← String.ofList_append, List.append_assoc, ← hinput,
        String.ofList_toList]
    · rw [← byteLength_toList, String.toList_ofList, hbefore]
    · simp [← Nat.add_assoc]

/-- The other quote on its own, an escaped quote, an escaped backslash and an escaped
letter of two bytes, behind a first character. -/
theorem string_matches_spellings_escaped :
    let token : StringToken :=
      ⟨'\x27', [⟨'"', false⟩, ⟨'\x27', true⟩, ⟨'\\', true⟩, ⟨'\u00e9', true⟩], by decide, by decide⟩
    let input := "=" ++ String.ofList token.text ++ "\x27"
    let m : Match Phrase := ⟨.literal (.string "\"\x27\\\u00e9"), 11⟩
    input = "=\x27\"\\\x27\\\\\\\u00e9\x27\x27" ∧ string.matchAt? input 1 = some m ∧
      ∃ (token : StringToken) (before following : String), ¬token.EscapesLineFeed ∧
        input = before ++ String.ofList token.text ++ following ∧ before.utf8ByteSize = 1 ∧
        m = ⟨.literal (.string token.contents), 1 + byteLength token.text⟩ := by
  intro token input m
  obtain ⟨hspelled, hread⟩ := string_matches_spellings input 1
  have hmatch : string.matchAt? input 1 = some m :=
    (hspelled token "=" "\x27" rfl rfl).trans (if_neg (by decide))
  exact ⟨by decide, hmatch, hread m hmatch⟩

/-- A line feed after a backslash is a way to write a string that is not read. -/
theorem escaped_lineFeed_not_matched :
    let token : StringToken := ⟨'\x27', [⟨'\n', true⟩], by decide, by decide⟩
    String.ofList token.text = "\x27\\\n\x27" ∧ token.contents = "\n" ∧
      (string.matchAt? "\x27\\\n\x27" 0).isNone = true := by
  decide +kernel

end TableQuery.Dialect
