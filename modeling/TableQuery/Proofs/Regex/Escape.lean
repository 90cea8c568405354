import TableQuery.Proofs.Text.Runs
import TableQuery.Regex.Escape

/-!
Reading in front of a closing parenthesis. What a reader takes from the start of a text it
also takes if a parenthesis comes at the end: none of them waits for the end, and none looks
for a parenthesis ahead. Only blanks can go on into it, where the text ends in a comment.
-/

namespace TableQuery.Regex

variable {data : UnicodeData} {flags : Flags} {text rest : List Char} {c : Char}

/-- A text that goes on with a parenthesis begins with another character only if it did so
before. -/
theorem append_ne_cons (hc : c ≠ ')') (h : ∀ tail, text ≠ c :: tail) (tail : List Char) :
    text ++ [')'] ≠ c :: tail := by
  intro heq
  cases text with
  | nil => exact hc (List.cons.inj heq).1.symm
  | cons d text =>
      obtain ⟨rfl, -⟩ := List.cons.inj heq
      exact h text rfl

theorem append_ne_cons_cons {d : Char} (hd : d ≠ ')') (h : ∀ tail, text ≠ c :: d :: tail)
    (tail : List Char) : text ++ [')'] ≠ c :: d :: tail := by
  intro heq
  cases text with
  | nil => cases heq
  | cons e text =>
      obtain ⟨rfl, htail⟩ := List.cons.inj heq
      exact append_ne_cons hd (fun more hmore => h more (congrArg (e :: ·) hmore)) tail htail

/-- Whether nothing but blanks and comments is left, and the last comment is still open. -/
def inComment : Bool → List Char → Bool
  | comment, [] => comment
  | true, c :: text => inComment (c ≠ '\n') text
  | false, c :: text =>
    if c = '#' then inComment true text else Text.isSpace c && inComment false text

/-- A comment that is open at the end takes the parenthesis as well. -/
theorem skipFrom_append (comment : Bool) (text : List Char) :
    skipFrom comment (text ++ [')']) =
      if inComment comment text then [] else skipFrom comment text ++ [')'] := by
  fun_induction skipFrom comment text with
  | case1 comment => cases comment <;> rfl
  | case2 c text ih => exact ih
  | case3 text ih => exact ih
  | case4 c text hc hspace ih =>
      rw [List.cons_append, skipFrom, inComment, if_neg hc, if_pos hspace, if_neg hc, hspace, ih]
      rfl
  | case5 c text hc hspace =>
      rw [List.cons_append, skipFrom, inComment, if_neg hc, if_neg hspace, if_neg hc]
      simp [hspace]

theorem skipFrom_of_inComment {comment : Bool} (h : inComment comment text = true) :
    skipFrom comment text = [] := by
  fun_induction skipFrom comment text with
  | case1 comment => rfl
  | case2 c text ih => exact ih h
  | case3 text ih => exact ih h
  | case4 c text hc hspace ih =>
      rw [inComment, if_neg hc, hspace, Bool.true_and] at h
      exact ih h
  | case5 c text hc hspace => simp [inComment, hc, hspace] at h

namespace Flags

/-- Whether nothing is left to read and the text ends in a comment. -/
def endsInComment (flags : Flags) (text : List Char) : Bool :=
  flags.has .verbose && inComment false text

theorem skip_append (text : List Char) :
    flags.skip (text ++ [')']) =
      if flags.endsInComment text then [] else flags.skip text ++ [')'] := by
  unfold skip endsInComment
  cases flags.has .verbose with
  | true => exact skipFrom_append false text
  | false => rfl

theorem skip_of_endsInComment (h : flags.endsInComment text = true) : flags.skip text = [] := by
  rw [endsInComment, Bool.and_eq_true] at h
  rw [skip, if_pos h.1, skipFrom_of_inComment h.2]

theorem skip_append_of_cons (h : flags.skip text = c :: rest) :
    flags.skip (text ++ [')']) = c :: (rest ++ [')']) := by
  have hopen : ¬flags.endsInComment text = true := by
    intro hcomment
    rw [skip_of_endsInComment hcomment] at h
    cases h
  rw [skip_append, if_neg hopen, h, List.cons_append]

theorem next?_eq_some_iff : flags.next? text = some (c, rest) ↔ flags.skip text = c :: rest := by
  unfold next?
  cases flags.skip text <;> simp

theorem next?_append (h : flags.next? text = some (c, rest)) :
    flags.next? (text ++ [')']) = some (c, rest ++ [')']) :=
  next?_eq_some_iff.mpr (skip_append_of_cons (next?_eq_some_iff.mp h))

theorem next?_append_of_none (h : flags.next? text = none) :
    flags.next? (text ++ [')']) = none ∨ flags.next? (text ++ [')']) = some (')', []) := by
  have hskip : flags.skip text = [] := by
    unfold next? at h
    split at h
    · cases h
    · assumption
  unfold next?
  rw [skip_append, hskip]
  cases flags.endsInComment text with
  | true => exact .inl rfl
  | false => exact .inr rfl

theorem next?_append_ne (hc : c ≠ ')') (h : ∀ rest, flags.next? text ≠ some (c, rest))
    (rest : List Char) : flags.next? (text ++ [')']) ≠ some (c, rest) := by
  cases hnext : flags.next? text with
  | some next =>
      obtain ⟨d, tail⟩ := next
      rw [next?_append hnext]
      rintro heq
      cases heq
      exact h tail hnext
  | none =>
      rcases next?_append_of_none hnext with heq | heq <;> rw [heq]
      · exact nofun
      · rintro heq
        cases heq
        exact hc rfl

theorem skip_append_ne (hc : c ≠ ')') (h : ∀ rest, flags.skip text ≠ c :: rest)
    (rest : List Char) : flags.skip (text ++ [')']) ≠ c :: rest := by
  simp only [← next?_eq_some_iff, Ne] at h ⊢
  exact next?_append_ne hc h rest

theorem upTo?_of_next? {close : Char} (h : flags.next? text = some (c, rest)) :
    flags.upTo? close text =
      if c = close then some ([], rest)
      else (flags.upTo? close rest).map fun (found, rest) => (c :: found, rest) := by
  rw [upTo?]
  split
  · rename_i hnext
    cases h.symm.trans hnext
    rfl
  · rename_i hnext
    cases h.symm.trans hnext

theorem upTo?_append {close : Char} {found : List Char}
    (h : flags.upTo? close text = some (found, rest)) :
    flags.upTo? close (text ++ [')']) = some (found, rest ++ [')']) := by
  fun_induction upTo? flags close text generalizing found rest with
  | case1 text tail hnext _ =>
      cases h
      rw [upTo?_of_next? (next?_append hnext), if_pos rfl]
  | case2 text c tail hnext _ hc ih =>
      obtain ⟨⟨found, tail⟩, hfound, heq⟩ := Option.map_eq_some_iff.mp h
      cases heq
      rw [upTo?_of_next? (next?_append hnext), if_neg hc, ih hfound, Option.map_some]
  | case3 text hnext => cases h

end Flags

theorem readCount?_append {count : Nat} {found : List Char}
    (h : readCount? flags count text = some (found, rest)) :
    readCount? flags count (text ++ [')']) = some (found, rest ++ [')']) := by
  induction count generalizing text found rest with
  | zero =>
      cases h
      rfl
  | succ count ih =>
      rw [readCount?] at h ⊢
      obtain ⟨⟨c, tail⟩, hnext, h⟩ := Option.bind_eq_some_iff.mp h
      obtain ⟨⟨others, tail⟩, hothers, h⟩ := Option.bind_eq_some_iff.mp h
      cases h
      simp [Flags.next?_append hnext, ih hothers]

variable {atom : Atom}

theorem readHex?_append {count : Nat} (h : readHex? flags count text = some (atom, rest)) :
    readHex? flags count (text ++ [')']) = some (atom, rest ++ [')']) := by
  unfold readHex? at h
  split at h
  · rename_i tail hnext
    obtain ⟨⟨digits, tail⟩, hdigits, h⟩ := Option.bind_eq_some_iff.mp h
    obtain ⟨c, hc, h⟩ := Option.bind_eq_some_iff.mp h
    cases h
    simp [readHex?, Flags.next?_append hnext, Flags.upTo?_append hdigits, hc]
  · rename_i hbrace
    obtain ⟨⟨digits, tail⟩, hdigits, h⟩ := Option.bind_eq_some_iff.mp h
    obtain ⟨c, hc, h⟩ := Option.bind_eq_some_iff.mp h
    obtain ⟨hbyte, h⟩ := Option.ite_none_right_eq_some.mp h
    cases h
    unfold readHex?
    split
    · rename_i hnext
      exact absurd hnext (Flags.next?_append_ne (by decide) hbrace _)
    · simp only [readCount?_append hdigits, Option.bind_eq_bind, Option.bind_some, hc, if_pos hbyte]

theorem readPropertyName?_append {name : List Char}
    (h : readPropertyName? flags text = some (name, rest)) :
    readPropertyName? flags (text ++ [')']) = some (name, rest ++ [')']) := by
  unfold readPropertyName? at h
  split at h
  · rename_i hnext
    simp [readPropertyName?, Flags.next?_append hnext, Flags.upTo?_append h]
  · cases h
  · rename_i hbrace hescape hnext
    cases h
    rw [readPropertyName?, Flags.next?_append hnext]
    split <;> simp_all
  · cases h

theorem readProperty?_append {negated : Bool}
    (h : readProperty? data flags negated text = some (atom, rest)) :
    readProperty? data flags negated (text ++ [')']) = some (atom, rest ++ [')']) := by
  obtain ⟨⟨name, tail⟩, hname, h⟩ := Option.bind_eq_some_iff.mp h
  obtain ⟨ranges, hranges, h⟩ := Option.bind_eq_some_iff.mp h
  obtain ⟨hunicode, h⟩ := Option.ite_none_right_eq_some.mp h
  cases h
  simp [readProperty?, readPropertyName?_append hname, hranges, hunicode]

theorem readBoundary?_append (h : readBoundary? flags text = some (atom, rest)) :
    readBoundary? flags (text ++ [')']) = some (atom, rest ++ [')']) := by
  unfold readBoundary? at h
  simp only at h
  split at h
  · obtain ⟨⟨c, tail⟩, hnext, h⟩ := Option.bind_eq_some_iff.mp h
    simp only at h
    split at h
    · rename_i hletter
      obtain ⟨⟨name, tail⟩, hname, h⟩ := Option.bind_eq_some_iff.mp h
      obtain ⟨assertion, hassertion, h⟩ := Option.bind_eq_some_iff.mp h
      cases h
      simp only [readBoundary?, List.cons_append, Flags.next?_append hnext, Option.bind_some,
        if_pos hletter, Flags.upTo?_append hname, Option.bind_eq_bind, hassertion]
    · rename_i hletter
      cases h
      simp only [readBoundary?, List.cons_append, Flags.next?_append hnext, Option.bind_some,
        if_neg hletter]
  · rename_i hbrace
    cases h
    unfold readBoundary?
    split
    · rename_i heq
      exact absurd heq (append_ne_cons (by decide) hbrace _)
    · rfl

theorem readEscape?_append (h : readEscape? data flags text = some (atom, rest)) :
    readEscape? data flags (text ++ [')']) = some (atom, rest ++ [')']) := by
  unfold readEscape? at h
  split at h
  · exact readHex?_append h
  · exact readHex?_append h
  · exact readHex?_append h
  · exact readProperty?_append h
  · exact readProperty?_append h
  · exact readBoundary?_append h
  · obtain ⟨atom, hletter, heq⟩ := Option.map_eq_some_iff.mp h
    cases heq
    simp [readEscape?, hletter]
  · cases h

end TableQuery.Regex
