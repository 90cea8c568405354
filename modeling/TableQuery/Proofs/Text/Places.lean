import TableQuery.Text.Offset

/-!
Offsets in bytes and what they cut off. An offset is a place of a text if some
characters at its beginning take exactly that many bytes, so a place and the text
after it determine each other. Later places leave shorter texts, and a text put in
front moves all places by its size.
-/

namespace TableQuery.Text

variable {text rest a b : List Char} {position p q : Nat}

theorem byteLength_pos (h : text ≠ []) : 0 < byteLength text := by
  cases text with
  | nil => exact absurd rfl h
  | cons c text =>
      have hc : 0 < c.utf8Size := Char.utf8Size_pos c
      rw [byteLength]
      omega

theorem byteLength_eq_zero : byteLength text = 0 ↔ text = [] := by
  constructor
  · exact fun h => Decidable.byContradiction fun hne => Nat.ne_of_gt (byteLength_pos hne) h
  · rintro rfl
    rfl

/-- Offsets beyond a text in front are offsets in what follows it, places or
not. -/
theorem dropBytes?_append (before rest : List Char) (count : Nat) :
    dropBytes? (byteLength before + count) (before ++ rest) = dropBytes? count rest := by
  induction before with
  | nil => rw [byteLength, Nat.zero_add, List.nil_append]
  | cons c before ih =>
      have hc : 0 < c.utf8Size := Char.utf8Size_pos c
      obtain ⟨k, hk⟩ : ∃ k, c.utf8Size + byteLength before + count = k + 1 :=
        ⟨c.utf8Size + byteLength before + count - 1, by omega⟩
      have hsize : c.utf8Size ≤ k + 1 := by omega
      have hrest : k + 1 - c.utf8Size = byteLength before + count := by omega
      rw [byteLength, hk, List.cons_append, dropBytes?, if_pos hsize, hrest, ih]

theorem dropBytes?_eq_some_iff :
    dropBytes? position text = some rest ↔
      ∃ before, text = before ++ rest ∧ byteLength before = position := by
  constructor
  · intro h
    induction text generalizing position with
    | nil =>
        cases position with
        | zero => exact ⟨[], Option.some.inj h, rfl⟩
        | succ position => simp [dropBytes?] at h
    | cons c text ih =>
        cases position with
        | zero => exact ⟨[], Option.some.inj h, rfl⟩
        | succ position =>
            rw [dropBytes?] at h
            split at h
            · rename_i hsize
              obtain ⟨before, rfl, hbefore⟩ := ih h
              refine ⟨c :: before, rfl, ?_⟩
              rw [byteLength, hbefore]
              omega
            · simp at h
  · rintro ⟨before, rfl, rfl⟩
    have h := dropBytes?_append before rest 0
    rwa [Nat.add_zero, dropBytes?] at h

theorem suffix_of_dropBytes? (h : dropBytes? position text = some rest) : rest <:+ text := by
  obtain ⟨before, rfl, -⟩ := dropBytes?_eq_some_iff.mp h
  exact List.suffix_append before rest

theorem add_byteLength_of_dropBytes? (h : dropBytes? position text = some rest) :
    position + byteLength rest = byteLength text := by
  obtain ⟨before, rfl, rfl⟩ := dropBytes?_eq_some_iff.mp h
  exact (byteLength_append before rest).symm

theorem dropBytes?_add {taken : List Char} (h : dropBytes? position text = some (taken ++ rest)) :
    dropBytes? (position + byteLength taken) text = some rest := by
  obtain ⟨before, rfl, rfl⟩ := dropBytes?_eq_some_iff.mp h
  refine dropBytes?_eq_some_iff.mpr ⟨before ++ taken, ?_, byteLength_append before taken⟩
  rw [List.append_assoc]

/-- Of two places, the later one is the one with less text after it. -/
theorem lt_iff_length_lt (ha : dropBytes? p text = some a) (hb : dropBytes? q text = some b) :
    p < q ↔ b.length < a.length := by
  have hp := add_byteLength_of_dropBytes? ha
  have hq := add_byteLength_of_dropBytes? hb
  rcases Nat.lt_or_ge b.length a.length with hlt | hle
  · obtain ⟨taken, rfl⟩ := List.suffix_of_suffix_length_le (suffix_of_dropBytes? hb)
      (suffix_of_dropBytes? ha) (Nat.le_of_lt hlt)
    have htaken : taken ≠ [] := by
      rintro rfl
      simp at hlt
    have hpos := byteLength_pos htaken
    rw [byteLength_append] at hp
    constructor
    · exact fun _ => hlt
    · intro _
      omega
  · obtain ⟨taken, rfl⟩ := List.suffix_of_suffix_length_le (suffix_of_dropBytes? ha)
      (suffix_of_dropBytes? hb) hle
    rw [byteLength_append] at hq
    omega

theorem isValid_iff {input : String} :
    String.Pos.Raw.IsValid input ⟨position⟩ ↔
      ∃ rest, dropBytes? position input.toList = some rest := by
  rw [String.Pos.Raw.isValid_iff_exists_append]
  constructor
  · rintro ⟨before, rest, rfl, hposition⟩
    refine ⟨rest.toList, dropBytes?_eq_some_iff.mpr ⟨before.toList, String.toList_append, ?_⟩⟩
    rw [byteLength_toList]
    exact (congrArg String.Pos.Raw.byteIdx hposition).symm
  · rintro ⟨rest, h⟩
    obtain ⟨before, htext, rfl⟩ := dropBytes?_eq_some_iff.mp h
    refine ⟨String.ofList before, String.ofList rest, ?_, ?_⟩
    · rw [← String.ofList_append, ← htext, String.ofList_toList]
    · rw [String.Pos.Raw.ext_iff, String.byteIdx_rawEndPos, ← byteLength_toList,
        String.toList_ofList]

end TableQuery.Text
