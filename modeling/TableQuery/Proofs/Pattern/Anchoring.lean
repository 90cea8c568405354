import TableQuery.Pattern.Captured
import TableQuery.Pattern.Expression
import TableQuery.Proofs.Pattern.Places
import TableQuery.Proofs.Regex.Reader

/-!
The two ways to keep an expression to the place where it is tried. A search tries the
expression where it begins before it tries any other place, and what it finds further on
is dropped, so that all that counts is the preferred match at the place itself. An anchor
in front of the expression holds there, because the text that is searched begins there,
and so it changes nothing.
-/

namespace TableQuery.Pattern

open Text

variable {α : Type} [Capture α]

/-- The preferred one of the matches of an expression that begin at an offset. -/
def preferred? (re : Regex) (input : String) (position : Nat) : Option (Match α) :=
  (dropBytes? position input.toList).bind fun rest =>
    (re.endings (.first rest)).head?.map fun ending =>
      let matched := (Cursor.first rest).upTo ending
      ⟨Capture.text (String.ofList matched), position + byteLength matched⟩

theorem matchAt?_regex_eq_preferred? (re : Regex) (input : String) (position : Nat) :
    (regex re : Pattern α).matchAt? input position = preferred? re input position := by
  rw [preferred?]
  cases hrest : dropBytes? position input.toList with
  | none => rw [matchAt?, hrest, Option.bind_none, Option.bind_none]
  | some rest =>
      rw [matchAt?_regex hrest, Option.bind_some, ← Regex.endAt?_eq_head?]
      cases hstart : re.endAt? (.first rest) with
      | some ending => rw [Regex.find?_of_endAt? hstart, Option.map_some]
      | none =>
          rw [Option.map_none]
          cases hfind : re.find? rest with
          | none => rfl
          | some found =>
              obtain ⟨before, matched, after⟩ := found
              cases before with
              | nil => exact absurd rfl (Regex.before_ne_nil_of_find? hstart hfind)
              | cons c before => rfl

theorem endings_anchored (re : Regex) (text : List Char) :
    re.anchored.endings (.first text) = re.endings (.first text) := by
  have hanchored : re.anchored.endingsFrom 0 ⟨.first text, []⟩ =
      [⟨.first text, []⟩].flatMap (re.endingsFrom 0) := rfl
  rw [Regex.endings, hanchored, List.flatMap_singleton, Regex.endings]

theorem preferred?_anchored (re : Regex) (input : String) (position : Nat) :
    (preferred? re.anchored input position : Option (Match α)) = preferred? re input position := by
  simp only [preferred?, endings_anchored]

/-- An expression that is well-formed on its own can be anchored unless its text ends in a
comment, which takes the parenthesis behind it. Where it can, the anchored expression matches
at every offset of every text what a search for it matches there: of all its matches that
begin at this offset, the preferred one. -/
theorem anchored?_of_searched? {data : Regex.UnicodeData} {expression : String}
    {searched : Pattern α} (h : searched? expression data = some searched) :
    ∃ re, Regex.read? data expression.toList = some re ∧
      ((anchored? expression data : Option (Pattern α)) = none ↔
        Regex.endsInComment data expression.toList = true) ∧
      ∀ input position, searched.matchAt? input position = preferred? re input position ∧
        ∀ anchored, anchored? expression data = some anchored →
          anchored.matchAt? input position = searched.matchAt? input position := by
  obtain ⟨re, hread, rfl⟩ := Option.map_eq_some_iff.mp h
  have hanchored : (anchored? expression data : Option (Pattern α)) =
      (if Regex.endsInComment data expression.toList then none
        else some re.anchored).map regex := by
    rw [anchored?, Regex.readAnchored?_of_read? hread]
  refine ⟨re, hread, ?_, fun input position =>
    ⟨matchAt?_regex_eq_preferred? re input position, ?_⟩⟩
  · rw [hanchored]
    split <;> simp_all
  · intro anchored hread'
    rw [hanchored] at hread'
    obtain ⟨re', hre', rfl⟩ := Option.map_eq_some_iff.mp hread'
    obtain ⟨-, hre'⟩ := Option.ite_none_left_eq_some.mp hre'
    cases hre'
    rw [matchAt?_regex_eq_preferred?, matchAt?_regex_eq_preferred?, preferred?_anchored]

/-- What `(?i)a|ab` stands for. -/
def letterOrLetters : Regex :=
  let letter (c : Char) : Regex := .chars ⟨[.range c c], false, true⟩
  .alt (letter 'a') (.seq (letter 'a') (letter 'b'))

/-- The first alternative is preferred to the longer one, in any case, and a match further
on does not count. -/
theorem anchored?_of_searched?_alternatives :
    ∃ anchored : Pattern Captured, anchored? "(?i)a|ab" = some anchored ∧
      anchored.matchAt? "xAB" 1 = some ⟨.text "A", 2⟩ ∧ anchored.matchAt? "xAB" 0 = none := by
  have hread : Regex.read? .ascii "(?i)a|ab".toList = some letterOrLetters := by decide +kernel
  have hsearched : searched? "(?i)a|ab" = some (regex letterOrLetters : Pattern Captured) :=
    congrArg (Option.map regex) hread
  obtain ⟨re, hre, hnone, hagree⟩ := anchored?_of_searched? hsearched
  obtain rfl := Option.some.inj (hread.symm.trans hre)
  have hcomment : Regex.endsInComment .ascii "(?i)a|ab".toList = false := by decide +kernel
  obtain ⟨anchored, hanchored⟩ := Option.ne_none_iff_exists'.mp fun hno =>
    Bool.false_ne_true (hcomment.symm.trans (hnone.mp hno))
  refine ⟨anchored, hanchored, ?_, ?_⟩
  · rw [(hagree "xAB" 1).2 anchored hanchored, (hagree "xAB" 1).1]
    rfl
  · rw [(hagree "xAB" 0).2 anchored hanchored, (hagree "xAB" 0).1]
    rfl

/-- A comment at the end of a verbose expression hides the end of the group that is put around
it, so this well-formed expression for one letter cannot be anchored. -/
theorem not_anchored?_comment :
    (∃ searched : Pattern Captured, searched? "(?x)a#" = some searched ∧
      searched.matchAt? "a" 0 = some ⟨.text "a", 1⟩) ∧
      (anchored? "(?x)a#" : Option (Pattern Captured)) = none := by
  have hread : Regex.read? .ascii "(?x)a#".toList = some (.chars (.singleton 'a')) := by decide +kernel
  have hanchored : Regex.readAnchored? .ascii "(?x)a#".toList = none := by decide +kernel
  refine ⟨⟨regex (.chars (.singleton 'a')), congrArg (Option.map regex) hread, ?_⟩,
    congrArg (Option.map regex) hanchored⟩
  rw [matchAt?_regex_eq_preferred?]
  rfl

/-- On its own, this expression closes a group that it has not opened, but not inside a
group. -/
example : Regex.read? .ascii "a)(?:b".toList = none ∧
    (Regex.readAnchored? .ascii "a)(?:b".toList).isSome = true := by
  constructor <;> decide +kernel

end TableQuery.Pattern
