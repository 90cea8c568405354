import TableQuery.Proofs.Regex.Escape
import TableQuery.Regex.Brackets

/-!
Reading sets of characters in front of a closing parenthesis. A set is closed by its own
bracket, so nothing that is read before it can be the parenthesis.
-/

namespace TableQuery.Regex

open Text

variable {data : UnicodeData} {flags : Flags} {text rest : List Char} {token : SetToken}

theorem readClassName?_append (text : List Char) :
    readClassName? (text ++ [')']) =
      (readClassName? text).map fun (ranges, rest) => (ranges, rest ++ [')']) := by
  unfold readClassName?
  cases hcut : text.dropWhile (· ≠ ':') with
  | nil =>
      rw [List.dropWhile_append, hcut]
      rfl
  | cons c tail =>
      obtain ⟨htake, hdrop⟩ := cut_append hcut [')']
      rw [htake, hdrop]
      by_cases hc : c = ':'
      · cases tail with
        | nil => simp [hc]
        | cons d tail => by_cases hd : d = ']' <;> simp [hc, hd, Function.comp_def]
      · simp [hc]

theorem readAsciiClass?_append (text : List Char) :
    readAsciiClass? (text ++ [')']) =
      (readAsciiClass? text).map fun (found, rest) => (found, rest ++ [')']) := by
  cases text with
  | nil => rfl
  | cons c text =>
      by_cases hc : c = ':'
      · subst hc
        cases text with
        | nil => rfl
        | cons d text =>
            by_cases hd : d = '^'
            · simp [hd, readAsciiClass?, readClassName?_append, Function.comp_def]
            · have happend := readClassName?_append (d :: text)
              rw [List.cons_append] at happend
              simp [hd, readAsciiClass?, happend, Function.comp_def]
      · simp [hc, readAsciiClass?]

theorem readHyphens?_of_next? {c : Char} (h : flags.next? text = some (c, rest)) :
    readHyphens? flags text =
      if c = '-' then (readHyphens? flags rest).map fun (_, rest) => (true, rest)
      else some (false, text) := by
  rw [readHyphens?]
  split
  · rename_i hnext
    cases h.symm.trans hnext
    rfl
  · rename_i hnext
    cases h.symm.trans hnext

theorem readHyphens?_append {hyphens : Bool} (h : readHyphens? flags text = some (hyphens, rest)) :
    readHyphens? flags (text ++ [')']) = some (hyphens, rest ++ [')']) := by
  fun_induction readHyphens? flags text generalizing hyphens rest with
  | case1 text tail hnext _ ih =>
      obtain ⟨⟨others, tail'⟩, hothers, heq⟩ := Option.map_eq_some_iff.mp h
      cases heq
      rw [readHyphens?_of_next? (Flags.next?_append hnext), if_pos rfl, ih hothers,
        Option.map_some]
  | case2 text c tail hnext _ hc =>
      cases h
      rw [readHyphens?_of_next? (Flags.next?_append hnext), if_neg hc]
  | case3 text hnext => cases h

theorem readFirst?_append {negated : Bool}
    (h : readFirst? flags negated text = some (token, rest)) :
    readFirst? flags negated (text ++ [')']) = some (token, rest ++ [')']) := by
  obtain ⟨⟨hyphens, tail⟩, hhyphens, h⟩ := Option.bind_eq_some_iff.mp h
  obtain ⟨⟨c, after⟩, hnext, h⟩ := Option.bind_eq_some_iff.mp h
  simp only [readFirst?, readHyphens?_append hhyphens, Option.bind_eq_bind, Option.bind_some,
    Flags.next?_append hnext]
  grind

theorem readOpening?_append (h : readOpening? flags text = some (token, rest)) :
    readOpening? flags (text ++ [')']) = some (token, rest ++ [')']) := by
  unfold readOpening? at h
  split at h
  · rename_i c tail hnext
    rw [readOpening?, Flags.next?_append hnext]
    split at h
    · rename_i hc
      simp only [if_pos hc]
      exact readFirst?_append h
    · rename_i hc
      simp only [if_neg hc]
      exact readFirst?_append h
  · cases h

theorem readSetAtom?_append {atom : Atom} (h : readSetAtom? data flags text = some (atom, rest)) :
    readSetAtom? data flags (text ++ [')']) = some (atom, rest ++ [')']) := by
  unfold readSetAtom? at h
  split at h
  · rename_i hnext
    simp [readSetAtom?, Flags.next?_append hnext, readEscape?_append h]
  · rename_i hescape hnext
    cases h
    rw [readSetAtom?, Flags.next?_append hnext]
    split <;> simp_all
  · cases h

theorem passBlanks_append (text : List Char) :
    passBlanks (text ++ [')']) = passBlanks text ++ [')'] := by
  have hstops : Stops isSpace [')'] := rfl
  unfold passBlanks
  rw [dropWhile_append_of_stops text hstops]
  cases text.dropWhile isSpace with
  | nil => rfl
  | cons c rest =>
      by_cases hc : c = '#'
      · subst hc
        exact dropWhile_append_of_stops rest hstops
      · simp [hc]

theorem peek_append {c : Char} (hc : c ≠ ')') (hsign : c ≠ '#') (hspace : isSpace c = false) :
    peek flags (text ++ [')']) = some c ↔ peek flags text = some c := by
  unfold peek
  split
  · rw [passBlanks_append]
    cases hpass : passBlanks text with
    | cons d rest => rfl
    | nil =>
        cases text with
        | nil => simp [hc.symm]
        | cons d text =>
            have hd : d ≠ c := by
              rintro rfl
              rw [passBlanks, List.dropWhile_cons_of_neg (by simp [hspace])] at hpass
              simp [hsign] at hpass
            simp [hc.symm, hd]
  · cases text with
    | nil => simp [hc.symm]
    | cons d text => rfl

theorem readSetItem?_append (h : readSetItem? data flags text = some (token, rest)) :
    readSetItem? data flags (text ++ [')']) = some (token, rest ++ [')']) := by
  have hclose (text : List Char) : peek flags (text ++ [')']) = some ']' ↔
      peek flags text = some ']' := peek_append (by decide) (by decide) (by decide)
  have hhyphen (text : List Char) : peek flags (text ++ [')']) = some '-' ↔
      peek flags text = some '-' := peek_append (by decide) (by decide) (by decide)
  obtain ⟨⟨atom, tail⟩, hatom, h⟩ := Option.bind_eq_some_iff.mp h
  rw [readSetItem?, readSetAtom?_append hatom]
  simp only [Option.bind_eq_bind, Option.bind_some] at h ⊢
  split at h
  · rename_i after hnext
    rw [Flags.next?_append hnext]
    simp only [hclose, hhyphen]
    split at h
    · rename_i halone
      rw [if_pos halone]
      obtain ⟨item, hitem, heq⟩ := Option.map_eq_some_iff.mp h
      cases heq
      rw [hitem, Option.map_some]
    · rename_i hrange
      rw [if_neg hrange]
      split at h
      · rename_i hlast
        rw [readSetAtom?_append hlast]
        obtain ⟨item, hitem, heq⟩ := Option.map_eq_some_iff.mp h
        cases heq
        exact congrArg (Option.map _) hitem
      · cases h
  · rename_i hnext
    split
    · rename_i heq
      exact absurd heq (Flags.next?_append_ne (by decide) hnext _)
    · obtain ⟨item, hitem, heq⟩ := Option.map_eq_some_iff.mp h
      cases heq
      rw [hitem, Option.map_some]

theorem readInner?_append (h : readInner? flags text = some (token, rest)) :
    readInner? flags (text ++ [')']) = some (token, rest ++ [')']) := by
  unfold readInner? at h ⊢
  rw [readAsciiClass?_append]
  split at h
  · rename_i hclass
    rw [hclass, Option.map_some]
    grind
  · rename_i hclass
    rw [hclass, Option.map_none]
    exact readOpening?_append h

theorem readSetToken?_append (h : readSetToken? data flags text = some (token, rest)) :
    readSetToken? data flags (text ++ [')']) = some (token, rest ++ [')']) := by
  unfold readSetToken? at h
  split at h
  · rename_i hskip
    simp [readSetToken?, Flags.skip_append_of_cons hskip, readInner?_append h]
  · rename_i hskip
    cases h
    simp [readSetToken?, Flags.skip_append_of_cons hskip]
  · rename_i hskip
    cases h
    simp [readSetToken?, Flags.skip_append_of_cons hskip]
  · rename_i hskip
    cases h
    simp [readSetToken?, Flags.skip_append_of_cons hskip]
  · rename_i hskip
    cases h
    simp [readSetToken?, Flags.skip_append_of_cons hskip]
  -- An item begins with a sign that is read before the parenthesis, so no other case applies.
  · rename_i hopen hclose hand hhyphen htilde
    obtain ⟨⟨atom, tail⟩, hatom, -⟩ := Option.bind_eq_some_iff.mp h
    have hitem := readSetItem?_append h
    obtain ⟨c, after, hskip⟩ : ∃ c after, flags.skip text = c :: after := by
      unfold readSetAtom? at hatom
      split at hatom
      · exact ⟨_, _, Flags.next?_eq_some_iff.mp ‹_›⟩
      · exact ⟨_, _, Flags.next?_eq_some_iff.mp ‹_›⟩
      · cases hatom
    rw [hskip] at hopen hclose hand hhyphen htilde
    rw [readSetToken?, Flags.skip_append_of_cons hskip, ← List.cons_append]
    split
    · exact absurd ‹_› (append_ne_cons (by decide) hopen _)
    · exact absurd ‹_› (append_ne_cons (by decide) hclose _)
    · exact absurd ‹_› (append_ne_cons_cons (by decide) hand _)
    · exact absurd ‹_› (append_ne_cons_cons (by decide) hhyphen _)
    · exact absurd ‹_› (append_ne_cons_cons (by decide) htilde _)
    · exact hitem

theorem readSetFrom?_append {set : OpenSet} {outer : List OpenSet} {read : CharSet}
    (h : readSetFrom? data flags set outer text = some (read, rest)) :
    readSetFrom? data flags set outer (text ++ [')']) = some (read, rest ++ [')']) := by
  induction hn : text.length using Nat.strongRecOn generalizing set outer text with
  | ind n ih =>
      subst hn
      rw [readSetFrom?] at h
      split at h
      · rename_i token tail htoken
        obtain ⟨hlt, h⟩ := Option.ite_none_right_eq_some.mp h
        have hlt' : (tail ++ [')']).length < (text ++ [')']).length := by
          simpa using hlt
        rw [readSetFrom?, readSetToken?_append htoken]
        simp only [if_pos hlt']
        split at h
        · exact ih _ hlt h rfl
        · exact ih _ hlt h rfl
        · exact ih _ hlt h rfl
        · split at h
          · exact ih _ hlt h rfl
          · cases h
            rfl
          · cases h
      · cases h

theorem readSet?_append {read : CharSet} (h : readSet? data flags text = some (read, rest)) :
    readSet? data flags (text ++ [')']) = some (read, rest ++ [')']) := by
  unfold readSet? at h
  split at h
  · rename_i hopening
    rw [readSet?, readOpening?_append hopening]
    exact readSetFrom?_append h
  · cases h

end TableQuery.Regex
