import TableQuery.Dialect
import TableQuery.Proofs.Pattern.Anchoring
import TableQuery.Proofs.Text.Folding

/-!
The tokens of the dialect are what the usual notation of their expressions is read as.
-/

namespace TableQuery

namespace Regex

variable {data : UnicodeData}

theorem readToken?_letter {flags : Flags} (hverbose : flags.has .verbose = false) {c : Char}
    (hc : c.isAlpha = true) (rest : List Char) :
    readToken? data flags (c :: rest) = some (.item (ofAtom flags (.char c)), rest) := by
  have hnext : flags.next? (c :: rest) = some (c, rest) := by
    rw [Flags.next?_eq_some_iff, Flags.skip, hverbose]
    rfl
  rw [readToken?, hnext]
  simp only [Option.bind_eq_bind, Option.bind_some]
  split <;> first | rfl | exact absurd hc (by decide)

theorem readFrom?_letters {groups : Groups} (hverbose : groups.group.flags.has .verbose = false)
    {word : List Char} (hword : ∀ c ∈ word, c.isAlpha = true) :
    readFrom? data groups word =
      some ({ groups with
        group := (word.map fun c => ofAtom groups.group.flags (.char c)).foldl
          Group.push groups.group }, []) := by
  induction word generalizing groups with
  | nil => exact readFrom?_of_skip (by rw [Flags.skip, hverbose]; rfl)
  | cons c word ih =>
      obtain ⟨hc, hword⟩ := List.forall_mem_cons.mp hword
      rw [readFrom?_of_token (readToken?_letter hverbose hc word) (by simp) rfl]
      exact ih hverbose hword

theorem toRegex_foldl_push (res : List Regex) (flags : Flags) :
    (res.foldl Group.push (.setFlags (.opened .default) flags)).toRegex = sequence res := by
  have hpush (group : Group) : (res.foldl Group.push group).alternatives = group.alternatives ∧
      (res.foldl Group.push group).items = res.reverse ++ group.items := by
    induction res generalizing group with
    | nil => exact ⟨rfl, rfl⟩
    | cons re res ih =>
        obtain ⟨halternatives, hitems⟩ := ih (group.push re)
        exact ⟨halternatives, by rw [List.foldl_cons, hitems]; simp [Group.push]⟩
  obtain ⟨halternatives, hitems⟩ := hpush (.setFlags (.opened .default) flags)
  rw [Group.toRegex, Group.endAlternative, halternatives, hitems]
  simp [Group.setFlags, Group.opened, choice]

end Regex

namespace Dialect

open Text Regex

/-- Words are spelled out in the notation, and the case of their letters does not count. -/
theorem anchored?_keyword {word : String} (h : IsKeyword word) (data : UnicodeData) :
    Pattern.anchored? ("(?i)" ++ word) data = some (keyword word) := by
  let letters := word.toList.map fun c => ofAtom [.caseless, .unicode] (.char c)
  let opened : Groups := ⟨.setFlags (.opened .default) [.caseless, .unicode], [], []⟩
  have hflags : readToken? data .default ("(?i)" ++ word).toList =
      some (.flags [.caseless, .unicode], word.toList) := by
    rw [String.toList_append]
    rfl
  have hread : readFrom? data .initial ("(?i)" ++ word).toList =
      some (⟨letters.foldl Group.push opened.group, [], []⟩, []) := by
    have hlt : word.toList.length < ("(?i)" ++ word).toList.length := by
      rw [String.toList_append, List.length_append]
      exact Nat.lt_add_of_pos_left (by decide)
    rw [readFrom?_of_token hflags hlt rfl]
    exact readFrom?_letters rfl h.2
  have hword : read? data ("(?i)" ++ word).toList = some (.caseless word) := by
    rw [read?, hread]
    exact congrArg some (toRegex_foldl_push letters _)
  have hcomment : endsInComment data ("(?i)" ++ word).toList = false := by
    rw [endsInComment, hread]
    exact Bool.and_false _
  rw [Pattern.anchored?, readAnchored?_of_read? hword, hcomment]
  rfl

theorem anchored?_of_readAnchored? {expression : String} {re : Regex}
    (h : readAnchored? .ascii expression.toList = some re.anchored) :
    Pattern.anchored? expression = some (token re) :=
  congrArg (Option.map Pattern.regex) h

theorem anchored?_ws : Pattern.anchored? "\\s+" = some ws :=
  anchored?_of_readAnchored? (by decide +kernel)

theorem anchored?_identifier : Pattern.anchored? "\\w+" = some identifier :=
  anchored?_of_readAnchored? (by decide +kernel)

theorem anchored?_string :
    ∃ re, Pattern.anchored? "\"(?:\\\\.|[^\"\\\\])*\"|'(?:\\\\.|[^'\\\\])*'" = some (token re) ∧
      string = .filterMap (token re) Phrase.toString? :=
  ⟨.alt (quotedBy '"') (quotedBy '\x27'), anchored?_of_readAnchored? (by decide +kernel), rfl⟩

theorem anchored?_number :
    ∃ re, Pattern.anchored? "[\\d.\\-]+" = some (token re) ∧
      number = .filterMap (token re) Phrase.toNumber? :=
  ⟨_, anchored?_of_readAnchored? (by decide +kernel), rfl⟩

theorem anchored?_boolean :
    ∃ re, Pattern.anchored? "(?i)(?:true|false)\\b" = some (token re) ∧
      boolean = .filterMap (token re) Phrase.toBoolean? :=
  ⟨_, anchored?_of_readAnchored? (by decide +kernel), rfl⟩

/-- The boundary belongs to the sequence of the letters here, which changes no match. -/
theorem anchored?_null :
    ∃ re, Pattern.anchored? "(?i)null\\b" = some (token re) ∧
      ∀ input position, (Pattern.filterMap (token re) Phrase.toNull?).matchAt? input position =
        null.matchAt? input position := by
  let letter (c : Char) : Regex := .chars ⟨[.range c c], false, true⟩
  let word := sequence [letter 'n', letter 'u', letter 'l', letter 'l', .boundary true]
  have hsame (cursor : Cursor) :
      word.endAt? cursor = (seq (.caseless "null") (.boundary true)).endAt? cursor := rfl
  have htoken (input : String) (position : Nat) : (token word).matchAt? input position =
      (token (seq (.caseless "null") (.boundary true))).matchAt? input position := by
    simp only [token, Pattern.matchAt?_regex_eq_preferred?, Pattern.preferred?_anchored]
    simp only [Pattern.preferred?, ← endAt?_eq_head?, hsame]
  refine ⟨word, anchored?_of_readAnchored? (by decide +kernel), fun input position => ?_⟩
  cases hrest : dropBytes? position input.toList with
  | none =>
      rw [Pattern.matchAt?_eq_none_of_dropBytes? hrest,
        Pattern.matchAt?_eq_none_of_dropBytes? hrest]
  | some rest =>
      rw [null, Pattern.matchAt?_filterMap hrest, Pattern.matchAt?_filterMap hrest, htoken]

end Dialect

end TableQuery
