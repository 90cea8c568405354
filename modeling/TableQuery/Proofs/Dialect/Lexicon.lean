import TableQuery.Proofs.Dialect.Literals
import TableQuery.Proofs.Dialect.Strings

/-!
Every token as it is meant to be written is among the tokens that are read, and
so is every query made of such tokens.
-/

namespace TableQuery

open Text

/-- One lexicon has the tokens of another and perhaps more. -/
structure Lexicon.Covers (larger smaller : Lexicon) : Prop where
  keyword {word : String} {s : List Char} : IsKeyword word →
    smaller.keyword word s → larger.keyword word s
  string {contents : String} {s : List Char} :
    smaller.string contents s → larger.string contents s
  number {n : Binary64} {s : List Char} : smaller.number n s → larger.number n s

section Mono

variable {larger smaller : Lexicon} {s : List Char} (h : larger.Covers smaller)
include h

theorem Operand.Spelled.mono {operand : Operand} (hs : operand.Spelled smaller s) :
    operand.Spelled larger s := by
  cases hs with
  | field field => exact .field field
  | literal hs =>
      refine .literal ?_
      cases hs with
      | null hs => exact .null (h.keyword Dialect.isKeyword_null hs)
      | @boolean b _ hs => exact .boolean (h.keyword (Dialect.isKeyword_truthWord b) hs)
      | number hs => exact .number (h.number hs)
      | string hs => exact .string (h.string hs)

theorem Select.Spelled.mono {select : Select} (hs : select.Spelled smaller s) :
    select.Spelled larger s := by
  cases hs with
  | mk source hword₁ hgap₁ hs hgap₂ hword₂ hgap₃ =>
      exact .mk source (h.keyword (by decide) hword₁) hgap₁ hs hgap₂
        (h.keyword (by decide) hword₂) hgap₃

theorem Join.Spelled.mono {join : Join} (hs : join.Spelled smaller s) :
    join.Spelled larger s := by
  cases hs with
  | mk table left right hword₁ hgap₁ hgap₂ hword₂ hgap₃ hbefore hafter =>
      exact .mk table left right (h.keyword (by decide) hword₁) hgap₁ hgap₂
        (h.keyword (by decide) hword₂) hgap₃ hbefore hafter

theorem JoinsSpelled.mono {joins : List Join} (hs : JoinsSpelled smaller joins s) :
    JoinsSpelled larger joins s := by
  induction hs with
  | nil => exact .nil
  | cons hgap hs _ ih => exact .cons hgap (hs.mono h) ih

theorem RestrictionSpelled.mono {condition : Option Condition}
    (hs : RestrictionSpelled smaller condition s) : RestrictionSpelled larger condition s := by
  cases hs with
  | none => exact .none
  | some hgap₁ hword hgap₂ hs =>
      refine .some hgap₁ (h.keyword (by decide) hword) hgap₂ ?_
      cases hs with
      | mk operator hl hbefore hafter hr =>
          exact .mk operator (hl.mono h) hbefore hafter (hr.mono h)

theorem Query.Spelled.mono {query : Query} (hs : query.Spelled smaller s) :
    query.Spelled larger s := by
  cases hs with
  | mk hselect hjoins hcondition hblanks =>
      exact .mk (hselect.mono h) (hjoins.mono h) (hcondition.mono h) hblanks

end Mono

theorem quotedBody_escape {quote : Char} (hquote : quote ≠ '\n') (contents : List Char) :
    QuotedBody quote contents (escape quote contents) := by
  induction contents with
  | nil => exact .nil
  | cons c contents ih =>
      rw [escape, List.flatMap_cons]
      split
      · rename_i hc
        refine .escaped ?_ ih
        rcases hc with rfl | rfl
        · exact hquote
        · decide
      · rename_i hc
        rw [not_or] at hc
        exact .plain hc.1 hc.2 ih

theorem accepted_covers_plain : Lexicon.accepted.Covers Lexicon.plain where
  keyword hword hs := foldsTo_of_toLower hs hword
  string := by
    rintro contents s ⟨quote, hquote, rfl⟩
    refine ⟨quote, _, hquote, quotedBody_escape ?_ contents.toList, rfl⟩
    rintro rfl
    exact absurd hquote (by decide)
  number := by
    rintro n s ⟨hs, hn⟩
    obtain ⟨c, tail, rfl, -⟩ := Dialect.startsNumber_of_numericPrefix? hn
    refine ⟨by simp, ?_, hn⟩
    intro d hd
    apply Dialect.isNumberChar_of_startsNumber
    simpa [Dialect.startsNumber, or_assoc] using hs d hd

end TableQuery
