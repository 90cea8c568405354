import TableQuery.Proofs.Regex.Brackets
import TableQuery.Regex.Reader

/-!
Reading an expression inside a group. An expression that is well-formed on its own has the
same tokens in front of a closing parenthesis, its own groups open and close around the same
items, and an anchor in front of the group stands before all of it. That is unless the text
of the expression ends in a comment: then the parenthesis is part of the comment, and the
group is never closed.
-/

namespace TableQuery.Regex

open Text

variable {data : UnicodeData} {flags : Flags} {text rest : List Char} {token : Token}

theorem readLazy_append (text : List Char) :
    readLazy flags (text ++ [')']) =
      ((readLazy flags text).1, (readLazy flags text).2 ++ [')']) := by
  cases text with
  | nil => rfl
  | cons c text => by_cases hc : c = '?' <;> simp [readLazy, hc]

theorem readRepetition_append {least : Nat} {most : Option Nat}
    (h : readRepetition flags least most text = (token, rest)) :
    readRepetition flags least most (text ++ [')']) = (token, rest ++ [')']) := by
  rw [readRepetition] at h
  rw [readRepetition, readLazy_append]
  cases h
  rfl

theorem readDigits_of_next? {c : Char} (h : flags.next? text = some (c, rest)) :
    readDigits flags text =
      if c.isDigit then (c :: (readDigits flags rest).1, (readDigits flags rest).2)
      else ([], text) := by
  rw [readDigits]
  split
  · rename_i hnext
    cases h.symm.trans hnext
    rfl
  · rename_i hnext
    cases h.symm.trans hnext

theorem readDigits_of_none (h : flags.next? text = none) : readDigits flags text = ([], text) := by
  rw [readDigits]
  split
  · rename_i hnext
    cases h.symm.trans hnext
  · rfl

theorem readDigits_append (text : List Char) :
    readDigits flags (text ++ [')']) =
      ((readDigits flags text).1, (readDigits flags text).2 ++ [')']) := by
  induction hn : text.length using Nat.strongRecOn generalizing text with
  | ind n ih =>
      subst hn
      cases hnext : flags.next? text with
      | none =>
          rw [readDigits_of_none hnext]
          rcases Flags.next?_append_of_none hnext with happend | happend
          · rw [readDigits_of_none happend]
          · rw [readDigits_of_next? happend]
            rfl
      | some next =>
          obtain ⟨c, rest⟩ := next
          rw [readDigits_of_next? hnext, readDigits_of_next? (Flags.next?_append hnext),
            ih _ (Flags.length_next? hnext) rest rfl]
          split <;> rfl

theorem trim_append {c : Char} (h : trim flags text = c :: rest) :
    trim flags (text ++ [')']) = c :: (rest ++ [')']) := by
  unfold trim at h ⊢
  cases hskip : flags.skip text with
  | nil =>
      rw [hskip] at h
      cases h
  | cons d tail =>
      rw [Flags.skip_append_of_cons hskip, ← List.cons_append, ← hskip]
      exact (cut_append h [')']).2

theorem readBound?_append {bound : Nat} (h : readBound? flags text = some (bound, rest)) :
    readBound? flags (text ++ [')']) = some (bound, rest ++ [')']) := by
  unfold readBound? at h
  obtain ⟨⟨hdigits, hbound⟩, h⟩ := Option.ite_none_right_eq_some.mp h
  have htrim : trim flags (text ++ [')']) = trim flags text ++ [')'] := by
    cases htrim : trim flags text with
    | nil =>
        have hnone : flags.next? [] = none := by
          unfold Flags.next? Flags.skip
          cases flags.has .verbose <;> rfl
        rw [htrim, readDigits_of_none hnone] at hdigits
        exact absurd rfl hdigits
    | cons c tail => rw [trim_append htrim, List.cons_append]
  cases h
  rw [readBound?, htrim, readDigits_append]
  exact if_pos ⟨hdigits, hbound⟩

theorem endBounds_append {least : Nat} {most : Option Nat}
    (h : endBounds flags least most text = (token, rest)) :
    endBounds flags least most (text ++ [')']) = (token, rest ++ [')']) := by
  unfold endBounds at h
  split at h
  · rename_i hnext
    cases h
    simp [endBounds, Flags.next?_append hnext]
  · rename_i hnext
    cases h
    unfold endBounds
    split
    · rename_i heq
      exact absurd heq (Flags.next?_append_ne (by decide) hnext _)
    · rfl

theorem readBounds?_append (h : readBounds? flags text = some (token, rest)) :
    readBounds? flags (text ++ [')']) = some (token, rest ++ [')']) := by
  obtain ⟨⟨least, tail⟩, hleast, h⟩ := Option.bind_eq_some_iff.mp h
  rw [readBounds?, readBound?_append hleast]
  simp only [Option.bind_eq_bind, Option.bind_some] at h ⊢
  split at h
  · rename_i htrim
    rw [trim_append htrim]
    exact congrArg some (endBounds_append (Option.some.inj h))
  · rename_i htrim
    rw [trim_append htrim]
    simp only
    split at h
    · rename_i hnext
      rw [Flags.next?_append hnext]
      exact congrArg some (endBounds_append (Option.some.inj h))
    · rename_i hbounded
      obtain ⟨⟨most, tail'⟩, hmost, h⟩ := Option.bind_eq_some_iff.mp h
      split
      · rename_i heq
        exact absurd heq (Flags.next?_append_ne (by decide) hbounded _)
      · rw [readBound?_append hmost, Option.bind_some]
        simp only at h ⊢
        split at h
        · rename_i hclose
          obtain ⟨hle, h⟩ := Option.ite_none_right_eq_some.mp h
          rw [trim_append hclose]
          simp only [if_pos hle]
          exact congrArg some (endBounds_append (Option.some.inj h))
        · cases h
  · cases h

/-! ### Groups and single tokens -/

theorem readGroupName?_append {name : List Char}
    (h : readGroupName? data text = some (name, rest)) :
    readGroupName? data (text ++ [')']) = some (name, rest ++ [')']) := by
  unfold readGroupName? at h
  split at h
  · rename_i htake hdrop
    obtain ⟨hname, h⟩ := Option.ite_none_right_eq_some.mp h
    cases h
    obtain ⟨htake', hdrop'⟩ := cut_append hdrop [')']
    rw [readGroupName?, htake', hdrop', htake]
    exact if_pos hname
  · cases h

theorem readFlags?_append (h : readFlags? flags text = some (token, rest)) :
    readFlags? flags (text ++ [')']) = some (token, rest ++ [')']) := by
  have hstops : Stops (fun c => decide (c ≠ ':' ∧ c ≠ ')')) [')'] := rfl
  obtain ⟨changed, hchanged, h⟩ := Option.bind_eq_some_iff.mp h
  unfold readFlags?
  rw [takeWhile_append_of_stops text hstops, dropWhile_append_of_stops text hstops]
  simp only [Option.bind_eq_bind, hchanged, Option.bind_some]
  split at h
  · rename_i hdrop
    cases h
    rw [hdrop]
    rfl
  · rename_i hdrop
    obtain ⟨hnames, h⟩ := Option.ite_none_left_eq_some.mp h
    cases h
    rw [hdrop]
    exact if_neg hnames
  · cases h

theorem readGroup?_append (h : readGroup? data flags text = some (token, rest)) :
    readGroup? data flags (text ++ [')']) = some (token, rest ++ [')']) := by
  unfold readGroup? at h
  split at h
  · rename_i hskip
    obtain ⟨⟨name, tail⟩, hname, heq⟩ := Option.map_eq_some_iff.mp h
    cases heq
    simp [readGroup?, Flags.skip_append_of_cons hskip, readGroupName?_append hname]
  · rename_i hskip
    obtain ⟨⟨name, tail⟩, hname, heq⟩ := Option.map_eq_some_iff.mp h
    cases heq
    simp [readGroup?, Flags.skip_append_of_cons hskip, readGroupName?_append hname]
  · rename_i tail hlong hshort hskip
    have hlong' : ∀ more, tail ++ [')'] ≠ 'P' :: '<' :: more :=
      append_ne_cons_cons (by decide) hlong
    have hshort' : ∀ more, tail ++ [')'] ≠ '<' :: more :=
      append_ne_cons (by decide) hshort
    rw [readGroup?, Flags.skip_append_of_cons hskip]
    split
    · rename_i heq
      exact absurd (List.cons.inj heq).2 (hlong' _)
    · rename_i heq
      exact absurd (List.cons.inj heq).2 (hshort' _)
    · rename_i heq
      cases heq
      exact readFlags?_append h
    · rename_i hsign
      exact absurd rfl (hsign _)
  · rename_i hlong hshort hflags
    cases h
    have hsign := Flags.skip_append_ne (by decide) hflags
    unfold readGroup?
    split
    · exact absurd ‹_› (hsign _)
    · exact absurd ‹_› (hsign _)
    · exact absurd ‹_› (hsign _)
    · rfl

theorem readToken?_of_closing (h : flags.skip text = [')']) :
    readToken? data flags text = some (.closing, []) := by
  rw [readToken?, Flags.next?_eq_some_iff.mpr h]
  rfl

theorem readToken?_append (h : readToken? data flags text = some (token, rest)) :
    readToken? data flags (text ++ [')']) = some (token, rest ++ [')']) := by
  obtain ⟨⟨c, tail⟩, hnext, h⟩ := Option.bind_eq_some_iff.mp h
  rw [readToken?, Flags.next?_append hnext]
  simp only [Option.bind_eq_bind, Option.bind_some] at h ⊢
  split at h
  · exact readGroup?_append h
  · cases h
    rfl
  · cases h
    rfl
  · exact congrArg some (readRepetition_append (Option.some.inj h))
  · exact congrArg some (readRepetition_append (Option.some.inj h))
  · exact congrArg some (readRepetition_append (Option.some.inj h))
  · exact readBounds?_append h
  · obtain ⟨⟨set, tail⟩, hset, heq⟩ := Option.map_eq_some_iff.mp h
    cases heq
    simp [readSet?_append hset]
  · obtain ⟨⟨atom, tail⟩, hatom, heq⟩ := Option.map_eq_some_iff.mp h
    cases heq
    simp [readEscape?_append hatom]
  · obtain ⟨re, hre, heq⟩ := Option.map_eq_some_iff.mp h
    cases heq
    simp [hre]
  · cases h
    rfl
  · cases h
    rfl
  · cases h
    rfl

/-! ### Expressions inside a group -/

/-- The groups with others around them. -/
def Groups.inside (groups : Groups) (base : List Group) : Groups :=
  { groups with outer := groups.outer ++ base }

variable {groups groups' : Groups}

/-- A token that can be read in a group on its own changes nothing around this group. -/
theorem Groups.step?_inside (h : groups.step? token = some groups') (base : List Group) :
    (groups.inside base).step? token = some (groups'.inside base) := by
  obtain ⟨group, outer, names⟩ := groups
  cases token with
  | closing =>
      cases outer with
      | nil => cases h
      | cons parent outer =>
          cases h
          rfl
  | opening flags name =>
      obtain ⟨hnames, h⟩ := Option.ite_none_right_eq_some.mp h
      cases h
      exact if_pos hnames
  | repetition least most greedy =>
      obtain ⟨group', hlatest, heq⟩ := Option.map_eq_some_iff.mp h
      cases heq
      simp [inside, step?, hlatest]
  | item | flags | bar =>
      cases h
      rfl

theorem readFrom?_of_skip (h : groups.group.flags.skip text = []) :
    readFrom? data groups text = some (groups, text) := by
  rw [readFrom?, h]
  rfl

theorem readFrom?_of_token (htoken : readToken? data groups.group.flags text = some (token, rest))
    (hlt : rest.length < text.length) (hstep : groups.step? token = some groups') :
    readFrom? data groups text = readFrom? data groups' rest := by
  obtain ⟨⟨c, tail⟩, hnext, -⟩ := Option.bind_eq_some_iff.mp htoken
  rw [readFrom?, Flags.next?_eq_some_iff.mp hnext, htoken]
  simp only [List.isEmpty_cons, Bool.false_eq_true, if_false, if_pos hlt, hstep, Option.bind_some]

/-- The same tokens are read in front of the parenthesis, and it is left with what is left. -/
theorem readFrom?_append (h : readFrom? data groups text = some (groups', rest))
    (base : List Group) :
    readFrom? data (groups.inside base) (text ++ [')']) =
      readFrom? data (groups'.inside base) (rest ++ [')']) := by
  fun_induction readFrom? data groups text with
  | case1 groups text hskip =>
      cases h
      rfl
  | case2 groups text hskip token tail htoken hlt ih =>
      obtain ⟨next, hstep, h⟩ := Option.bind_eq_some_iff.mp h
      have hlt' : (tail ++ [')']).length < (text ++ [')']).length := by
        simpa using hlt
      have htoken' : readToken? data (groups.inside base).group.flags (text ++ [')']) =
          some (token, tail ++ [')']) := readToken?_append htoken
      rw [readFrom?_of_token htoken' hlt' (Groups.step?_inside hstep base)]
      exact ih next h
  | case3 => cases h
  | case4 => cases h

theorem skip_of_readFrom? (h : readFrom? data groups text = some (groups', rest)) :
    groups'.group.flags.skip rest = [] := by
  fun_induction readFrom? data groups text with
  | case1 groups text hskip =>
      cases h
      exact List.isEmpty_iff.mp hskip
  | case2 groups text hskip token tail htoken hlt ih =>
      obtain ⟨next, hstep, h⟩ := Option.bind_eq_some_iff.mp h
      exact ih next h
  | case3 => cases h
  | case4 => cases h

/-- The parenthesis closes the innermost group, but not if it is part of a comment. -/
theorem readFrom?_closing {parent : Group} (houter : groups.outer = [])
    (hskip : groups.group.flags.skip text = []) :
    readFrom? data (groups.inside [parent]) (text ++ [')']) =
      if groups.group.flags.endsInComment text then
        some (groups.inside [parent], text ++ [')'])
      else
        some ({ groups with group := parent.push groups.group.toRegex }, []) := by
  obtain ⟨group, outer, names⟩ := groups
  subst houter
  have hclosing : group.flags.skip (text ++ [')']) = _ := Flags.skip_append text
  split
  · rename_i hcomment
    rw [if_pos hcomment] at hclosing
    exact readFrom?_of_skip hclosing
  · rename_i hcomment
    rw [if_neg hcomment, hskip, List.nil_append] at hclosing
    have htoken : readToken? data group.flags _ = _ := readToken?_of_closing hclosing
    have hstep : (Groups.inside ⟨group, [], names⟩ [parent]).step? .closing =
        some ⟨parent.push group.toRegex, [], names⟩ := rfl
    rw [readFrom?_of_token htoken (by simp) hstep]
    exact readFrom?_of_skip (by unfold Flags.skip; split <;> rfl)

/-- Whether the text of an expression ends inside a comment. -/
def endsInComment (data : UnicodeData) (text : List Char) : Bool :=
  match readFrom? data .initial text with
  | some (groups, rest) => groups.group.flags.endsInComment rest
  | none => false

/-- The group around an anchored expression, which holds the anchor. -/
def afterAnchor : Group :=
  Group.push (.opened .default) start

theorem readAnchored?_eq (text : List Char) :
    readAnchored? data text =
      (readFrom? data (.inside .initial [afterAnchor]) (text ++ [')'])).bind fun (groups, _) =>
        if groups.outer.isEmpty then some groups.group.toRegex else none := by
  have hanchor : readToken? data .default ('^' :: '(' :: '?' :: ':' :: (text ++ [')'])) =
      some (.item start, '(' :: '?' :: ':' :: (text ++ [')'])) := rfl
  have hopening : readToken? data .default ('(' :: '?' :: ':' :: (text ++ [')'])) =
      some (.opening .default none, text ++ [')']) := rfl
  change (readFrom? data .initial ('^' :: '(' :: '?' :: ':' :: (text ++ [')']))).bind _ = _
  rw [readFrom?_of_token hanchor (by simp) rfl, readFrom?_of_token hopening (by simp) rfl]
  rfl

/-- An expression that can be read on its own can be read with the anchor, which stands before
all of it, unless its text ends in a comment. Then it cannot. -/
theorem readAnchored?_of_read? {re : Regex} (h : read? data text = some re) :
    readAnchored? data text = if endsInComment data text then none else some re.anchored := by
  obtain ⟨⟨groups, rest⟩, hread, h⟩ := Option.bind_eq_some_iff.mp h
  obtain ⟨houter, h⟩ := Option.ite_none_right_eq_some.mp h
  cases h
  have houter : groups.outer = [] := List.isEmpty_iff.mp houter
  rw [readAnchored?_eq, readFrom?_append hread, readFrom?_closing houter (skip_of_readFrom? hread),
    endsInComment, hread]
  simp only
  -- In a comment the group around the expression stays open, which is not allowed at the end.
  split
  · rw [Option.bind_some, Groups.inside, houter]
    rfl
  · rw [Option.bind_some, houter]
    rfl

theorem Groups.inside_nil (groups : Groups) : groups.inside [] = groups := by
  rw [inside, List.append_nil]

/-- On its own such an expression swallows a closing parenthesis that comes after it, which is
left over after any other. -/
theorem endsInComment_iff_read? {re : Regex} (h : read? data text = some re) :
    endsInComment data text = true ↔ read? data (text ++ [')']) = some re := by
  obtain ⟨⟨groups, rest⟩, hread, h⟩ := Option.bind_eq_some_iff.mp h
  obtain ⟨houter, h⟩ := Option.ite_none_right_eq_some.mp h
  cases h
  have houter : groups.outer = [] := List.isEmpty_iff.mp houter
  have happend := readFrom?_append hread []
  rw [Groups.inside_nil, Groups.inside_nil] at happend
  have hclosing : groups.group.flags.skip (rest ++ [')']) = _ := Flags.skip_append rest
  rw [endsInComment, hread, read?, happend]
  simp only
  cases hcomment : groups.group.flags.endsInComment rest with
  | true =>
      rw [hcomment, if_pos rfl] at hclosing
      rw [readFrom?_of_skip hclosing]
      simp [houter]
  | false =>
      rw [hcomment, if_neg (by decide), skip_of_readFrom? hread, List.nil_append] at hclosing
      have htoken : readToken? data groups.group.flags _ = _ := readToken?_of_closing hclosing
      have hstep : groups.step? .closing = none := by
        rw [Groups.step?, houter]
      rw [readFrom?, hclosing, htoken]
      simp [hstep]

end TableQuery.Regex
