import TableQuery.Proofs.Text.CaseFolding

/-!
How the classes of characters lie to each other, and what a letter may be
written as where case does not count. A blank is in no other class, so a blank
ends every token; and all that folds to an ASCII letter is a word character, so
a word written in any case is still a word.
-/

namespace TableQuery.Text

theorem exists_range_of_inRanges {ranges : List (Nat × Nat)} {n : Nat}
    (h : inRanges ranges n = true) : ∃ range ∈ ranges, range.1 ≤ n ∧ n ≤ range.2 := by
  induction ranges with
  | nil => simp [inRanges] at h
  | cons range rest ih =>
      simp only [inRanges] at h
      split at h
      · simp at h
      · rcases Bool.or_eq_true .. ▸ h with h | h
        · exact ⟨range, List.mem_cons_self, by omega, by simpa using h⟩
        · obtain ⟨r, hr, h⟩ := ih h
          exact ⟨r, List.mem_cons_of_mem _ hr, h⟩

/-- There are few blanks, so a test on codes that all of them pass can be
checked one by one. -/
theorem forall_isSpace (test : Nat → Bool)
    (h : ∀ range ∈ spaceRanges, ∀ i < range.2 + 1 - range.1, test (range.1 + i) = true)
    {c : Char} (hc : isSpace c = true) : test c.toNat = true := by
  obtain ⟨range, hrange, hfirst, hlast⟩ := exists_range_of_inRanges hc
  have htest := h range hrange (c.toNat - range.1) (by omega)
  rwa [Nat.add_sub_cancel' hfirst] at htest

theorem isWord_of_isSpace {c : Char} (hc : isSpace c = true) : isWord c = false := by
  have h := forall_isSpace (fun n => !inRanges wordRanges n) (by decide +kernel) hc
  simpa [isWord] using h

theorem isSpace_of_isWord {c : Char} (hc : isWord c = true) : isSpace c = false := by
  rw [Bool.eq_false_iff]
  intro h
  rw [isWord_of_isSpace h] at hc
  simp at hc

theorem isDigit_of_isSpace {c : Char} (hc : isSpace c = true) : isDigit c = false := by
  have h := forall_isSpace (fun n => !inRanges digitRanges n) (by decide +kernel) hc
  simpa [isDigit] using h

theorem isAlpha_iff {c : Char} :
    c.isAlpha = true ↔ 65 ≤ c.toNat ∧ c.toNat ≤ 90 ∨ 97 ≤ c.toNat ∧ c.toNat ≤ 122 := by
  change (decide (65 ≤ c.val ∧ c.val ≤ 90) || (decide (97 ≤ c.val) && decide (c.val ≤ 122))) =
    true ↔ _
  simp [UInt32.le_iff_toNat_le]

theorem isDigit_iff {c : Char} : c.isDigit = true ↔ 48 ≤ c.toNat ∧ c.toNat ≤ 57 := by
  simp [Char.isDigit, UInt32.le_iff_toNat_le]

theorem toNat_toLower (c : Char) :
    c.toLower.toNat = if 65 ≤ c.toNat ∧ c.toNat ≤ 90 then c.toNat + 32 else c.toNat := by
  unfold Char.toLower
  split
  · rename_i h
    have hcode : 65 ≤ c.toNat ∧ c.toNat ≤ 90 := by simpa [UInt32.le_iff_toNat_le] using h
    rw [if_pos hcode]
    change (c.val + 32).toNat = c.val.toNat + 32
    rw [UInt32.toNat_add]
    exact Nat.mod_eq_of_lt (by simp; omega)
  · rename_i h
    rw [if_neg (by simpa [UInt32.le_iff_toNat_le] using h)]

/-- A block of codes is in the ranges if each of its codes is. -/
theorem inRanges_of_block {ranges : List (Nat × Nat)} {first count n : Nat}
    (h : ∀ i < count, inRanges ranges (first + i) = true) (hfirst : first ≤ n)
    (hlast : n < first + count) : inRanges ranges n = true := by
  have hn := h (n - first) (by omega)
  rwa [Nat.add_sub_cancel' hfirst] at hn

theorem isWord_of_isAlpha {c : Char} (hc : c.isAlpha = true) : isWord c = true := by
  have hupper : ∀ i < 26, inRanges wordRanges (65 + i) = true := by decide
  have hlower : ∀ i < 26, inRanges wordRanges (97 + i) = true := by decide
  rcases isAlpha_iff.mp hc with ⟨hfirst, hlast⟩ | ⟨hfirst, hlast⟩
  · exact inRanges_of_block hupper hfirst (by omega)
  · exact inRanges_of_block hlower hfirst (by omega)

theorem isWord_of_isDigit {c : Char} (hc : c.isDigit = true) : isWord c = true := by
  have hdigit : ∀ i < 10, inRanges wordRanges (48 + i) = true := by decide
  obtain ⟨hfirst, hlast⟩ := isDigit_iff.mp hc
  exact inRanges_of_block hdigit hfirst (by omega)

/-- The digits of numbers are decimal digits of the class. -/
theorem isDigit_of_charIsDigit {c : Char} (hc : c.isDigit = true) : isDigit c = true := by
  have hdigit : ∀ i < 10, inRanges digitRanges (48 + i) = true := by decide
  obtain ⟨hfirst, hlast⟩ := isDigit_iff.mp hc
  exact inRanges_of_block hdigit hfirst (by omega)

/-! ### Simple case folding -/

/-- What a keyword may be: one or more ASCII letters. -/
def IsKeyword (word : String) : Prop :=
  word.toList ≠ [] ∧ ∀ c ∈ word.toList, c.isAlpha = true

instance (word : String) : Decidable (IsKeyword word) :=
  decidable_of_iff (word.toList ≠ [] ∧ word.toList.all Char.isAlpha = true)
    (by rw [IsKeyword, List.all_eq_true])

/-- Simple case folding, as far as it can lead to an ASCII letter: besides the
capital letters, only the long s and the Kelvin sign do. -/
def foldCase (c : Char) : Char :=
  if c = '\u017F' then 's' else if c = '\u212A' then 'k' else c.toLower

/-- A text that is a given word of ASCII letters, if case does not count. -/
def FoldsTo (word : String) (s : List Char) : Prop :=
  s.map foldCase = word.toList.map Char.toLower

instance (word : String) (s : List Char) : Decidable (FoldsTo word s) :=
  inferInstanceAs (Decidable (_ = _))

theorem foldCase_of_lt {c : Char} (hc : c.toNat < 128) : foldCase c = c.toLower := by
  have hs : c ≠ '\u017F' := by
    rintro rfl
    exact absurd hc (by decide)
  have hk : c ≠ '\u212A' := by
    rintro rfl
    exact absurd hc (by decide)
  rw [foldCase, if_neg hs, if_neg hk]

/-- Only letters fold to an ASCII letter: the capital ones, the long s and the Kelvin sign. -/
def FoldRange.foldsToAscii (range : FoldRange) : Bool :=
  range.first.beq 0x41 && range.last.beq 0x5A && range.target.beq 0x61 ||
    range.first.beq 0x17F && range.last.beq 0x17F ||
    range.first.beq 0x212A && range.last.beq 0x212A ||
    Nat.ble 128 range.first && Nat.ble 128 range.target

theorem foldsToAscii_foldRanges : foldRanges.all FoldRange.foldsToAscii = true := by
  decide +kernel

theorem foldCode_upper {n : Nat} (h : 65 ≤ n ∧ n ≤ 90) : foldCode n = n + 32 := by
  have hcovers : FoldRange.covers ⟨0x41, 0x5A, 1, 0x61⟩ n = true := by
    rw [FoldRange.covers_iff]
    exact ⟨h.1, h.2, Nat.mod_one _⟩
  rw [foldCode_of_covers List.mem_cons_self hcovers]
  change 97 + (n - 65) = n + 32
  omega

theorem foldCode_of_not_upper {n : Nat} (hupper : ¬(65 ≤ n ∧ n ≤ 90)) (hs : n ≠ 0x17F)
    (hk : n ≠ 0x212A) : foldCode n = n ∨ 128 ≤ n ∧ 128 ≤ foldCode n := by
  rcases foldCode_cases n with ⟨h, -⟩ | ⟨range, hmem, hcovers⟩
  · exact .inl h
  · have hrange := List.all_eq_true.mp foldsToAscii_foldRanges range hmem
    rw [foldCode_of_covers hmem hcovers]
    rw [FoldRange.covers_iff] at hcovers
    simp only [FoldRange.foldsToAscii, Bool.or_eq_true, Bool.and_eq_true, Nat.beq_eq,
      Nat.ble_eq] at hrange
    omega

/-- As far as ASCII letters are concerned, the table folds like `foldCase`. -/
theorem foldCode_toNat (c : Char) :
    foldCode c.toNat = (foldCase c).toNat ∨
      128 ≤ foldCode c.toNat ∧ 128 ≤ (foldCase c).toNat := by
  have hlower := toNat_toLower c
  unfold foldCase
  split
  · rename_i h
    rw [h]
    exact .inl (by decide +kernel)
  · split
    · rename_i h
      rw [h]
      exact .inl (by decide +kernel)
    · rename_i hs hk
      have hs : c.toNat ≠ 0x17F := fun h => hs (Char.toNat_inj.mp h)
      have hk : c.toNat ≠ 0x212A := fun h => hk (Char.toNat_inj.mp h)
      by_cases hupper : 65 ≤ c.toNat ∧ c.toNat ≤ 90
      · rw [foldCode_upper hupper, hlower, if_pos hupper]
        exact .inl rfl
      · rw [hlower, if_neg hupper]
        rcases foldCode_of_not_upper hupper hs hk with h | h
        · exact .inl h
        · exact .inr ⟨h.2, h.1⟩

/-- The characters that match a letter in any case are those that fold to it. -/
theorem mem_caseVariants_iff_foldCase {c d : Char} (hc : c.isAlpha = true) :
    c ∈ caseVariants d ↔ foldCase d = c.toLower := by
  rw [isAlpha_iff] at hc
  have hlower := toNat_toLower c
  have hletter : foldCode c.toNat = c.toLower.toNat := by
    by_cases hupper : 65 ≤ c.toNat ∧ c.toNat ≤ 90
    · rw [foldCode_upper hupper, hlower, if_pos hupper]
    · have := foldCode_of_not_upper hupper
      grind
  rw [mem_caseVariants_iff, hletter, ← Char.toNat_inj]
  have := foldCode_toNat d
  grind

theorem isAlpha_toLower {c : Char} (hc : c.isAlpha = true) : c.toLower.isAlpha = true := by
  rw [isAlpha_iff] at hc ⊢
  have hlower := toNat_toLower c
  grind

theorem isWord_of_foldCase {c : Char} (hc : (foldCase c).isAlpha = true) : isWord c = true := by
  unfold foldCase at hc
  split at hc
  · rename_i h
    rw [h]
    decide
  · split at hc
    · rename_i h
      rw [h]
      decide +kernel
    · have hlower := toNat_toLower c
      apply isWord_of_isAlpha
      rw [isAlpha_iff] at hc ⊢
      grind

theorem isWord_of_foldsTo {word : String} {s : List Char} (h : FoldsTo word s)
    (hword : IsKeyword word) : ∀ c ∈ s, isWord c = true := by
  intro c hc
  have hmem : foldCase c ∈ word.toList.map Char.toLower := h ▸ List.mem_map_of_mem hc
  obtain ⟨d, hd, heq⟩ := List.mem_map.mp hmem
  exact isWord_of_foldCase (heq ▸ isAlpha_toLower (hword.2 d hd))

theorem isDigit_of_foldCase {c : Char} (hc : (foldCase c).isAlpha = true) : c.isDigit = false := by
  rw [Bool.eq_false_iff]
  intro hdigit
  rw [isDigit_iff] at hdigit
  rw [isAlpha_iff] at hc
  have hlower := toNat_toLower c
  rw [foldCase_of_lt (by omega)] at hc
  grind

theorem exists_head_of_foldsTo {word : String} {s : List Char} (h : FoldsTo word s)
    (hword : IsKeyword word) :
    ∃ c tail, s = c :: tail ∧ isWord c = true ∧ c.isDigit = false := by
  obtain _ | ⟨c, tail⟩ := s
  · exact absurd (List.map_eq_nil_iff.mp h.symm) hword.1
  · refine ⟨c, tail, rfl, isWord_of_foldsTo h hword c (by simp), ?_⟩
    have hmem : foldCase c ∈ word.toList.map Char.toLower := h ▸ List.mem_map_of_mem (by simp)
    obtain ⟨d, hd, heq⟩ := List.mem_map.mp hmem
    exact isDigit_of_foldCase (heq ▸ isAlpha_toLower (hword.2 d hd))

theorem foldCase_eq_toLower {c : Char} (hs : foldCase c ≠ 's') (hk : foldCase c ≠ 'k') :
    foldCase c = c.toLower := by
  unfold foldCase at hs hk ⊢
  split at hs
  · exact absurd rfl hs
  · split at hs
    · simp_all
    · simp_all

/-- Texts that begin with different words have different first letters. -/
theorem head?_eq_of_foldsTo {word other : String} {s t rest tail : List Char}
    (hs : FoldsTo word s) (ht : FoldsTo other t) (hword : IsKeyword word)
    (hother : IsKeyword other) (h : s ++ rest = t ++ tail) :
    (word.toList.map Char.toLower).head? = (other.toList.map Char.toLower).head? := by
  rw [← hs, ← ht]
  obtain ⟨c, s, rfl, -⟩ := exists_head_of_foldsTo hs hword
  obtain ⟨d, t, rfl, -⟩ := exists_head_of_foldsTo ht hother
  simp only [List.cons_append, List.cons.injEq] at h
  simp [h.1]

theorem foldsTo_of_toLower {word : String} {s : List Char}
    (h : s.map Char.toLower = word.toList.map Char.toLower)
    (hword : IsKeyword word) : FoldsTo word s := by
  unfold FoldsTo
  rw [← h]
  apply List.map_congr_left
  intro c hc
  have hmem : c.toLower ∈ word.toList.map Char.toLower := h ▸ List.mem_map_of_mem hc
  obtain ⟨d, hd, heq⟩ := List.mem_map.mp hmem
  have halpha := isAlpha_iff.mp (heq ▸ isAlpha_toLower (hword.2 d hd))
  have hlower := toNat_toLower c
  exact foldCase_of_lt (by grind)

end TableQuery.Text
