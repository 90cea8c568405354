import TableQuery.Regex.Basic

/-!
The forms of a character are the characters that fold alike. The table of folding says so
if no code is in two of its ranges and no code that others fold to is in any, which is
checked for each two of its ranges.
-/

namespace TableQuery

namespace Text

variable {range other : FoldRange} {ranges : List FoldRange} {m n : Nat}

theorem FoldRange.covers_iff :
    range.covers n = true ↔
      range.first ≤ n ∧ n ≤ range.last ∧ (n - range.first) % range.stride = 0 := by
  simp [covers, and_assoc]

/-- Each range begins after the one before it, and the first one not below a bound. -/
def ascendingFrom (bound : Nat) : List FoldRange → Bool
  | range :: ranges =>
    bound.ble range.first && range.first.ble range.last && ascendingFrom (range.last + 1) ranges
  | [] => true

/-- What the codes of a range fold to is not in another one, which lies elsewhere or lies
between it. -/
def FoldRange.avoids (range other : FoldRange) : Bool :=
  other.last.blt range.target ||
    (range.target + (range.last - range.first)).blt other.first ||
    (other.stride.beq 2 && (range.stride.beq 2 || range.first.beq range.last) &&
      ((range.target + other.first) % 2).beq 1)

def FoldRange.areChars (range : FoldRange) : Bool :=
  (range.last.blt 0xD800 || Nat.blt 0xDFFF range.first && range.last.blt 0x110000) &&
    (let last := range.target + (range.last - range.first)
    last.blt 0xD800 || Nat.blt 0xDFFF range.target && last.blt 0x110000)

theorem ascending_foldRanges : ascendingFrom 0 foldRanges = true := by
  decide +kernel

theorem avoids_foldRanges :
    (foldRanges.all fun range => foldRanges.all range.avoids) = true := by
  decide +kernel

theorem areChars_foldRanges : foldRanges.all FoldRange.areChars = true := by
  decide +kernel

theorem FoldRange.not_covers_of_avoids (h : range.avoids other = true)
    (hn : range.covers n = true) : other.covers (range.target + (n - range.first)) = false := by
  rw [Bool.eq_false_iff]
  intro hother
  rw [covers_iff] at hn hother
  simp only [avoids, Nat.blt_eq, Nat.beq_eq, Bool.or_eq_true, Bool.and_eq_true] at h
  obtain (h | h) | ⟨⟨hstride, heven⟩, hodd⟩ := h
  · omega
  · omega
  · rw [hstride] at hother
    have : (n - range.first) % 2 = 0 := by
      rcases heven with heven | hone
      · rw [← heven]
        exact hn.2.2
      · omega
    omega

theorem le_first_of_ascendingFrom {bound : Nat} (h : ascendingFrom bound ranges = true)
    (hmem : range ∈ ranges) : bound ≤ range.first := by
  induction ranges generalizing bound with
  | nil => cases hmem
  | cons head ranges ih =>
      simp only [ascendingFrom, Bool.and_eq_true, Nat.ble_eq] at h
      rcases List.mem_cons.mp hmem with rfl | hmem
      · exact h.1.1
      · have := ih h.2 hmem
        omega

theorem find?_covers {bound : Nat} (h : ascendingFrom bound ranges = true) (hmem : range ∈ ranges)
    (hn : range.covers n = true) : ranges.find? (·.covers n) = some range := by
  induction ranges generalizing bound with
  | nil => cases hmem
  | cons head ranges ih =>
      simp only [ascendingFrom, Bool.and_eq_true, Nat.ble_eq] at h
      rcases List.mem_cons.mp hmem with rfl | hmem
      · rw [List.find?_cons, hn]
      · have hlater := le_first_of_ascendingFrom h.2 hmem
        have hhead : head.covers n = false := by
          rw [Bool.eq_false_iff, Ne, FoldRange.covers_iff]
          rw [FoldRange.covers_iff] at hn
          omega
        rw [List.find?_cons, hhead]
        exact ih h.2 hmem

theorem foldCode_of_covers (hmem : range ∈ foldRanges) (hn : range.covers n = true) :
    foldCode n = range.target + (n - range.first) := by
  rw [foldCode, find?_covers ascending_foldRanges hmem hn]

theorem foldCode_cases (n : Nat) :
    foldCode n = n ∧ (∀ range ∈ foldRanges, range.covers n = false) ∨
      ∃ range ∈ foldRanges, range.covers n = true := by
  by_cases h : ∃ range ∈ foldRanges, range.covers n = true
  · exact .inr h
  · have hnone : ∀ range ∈ foldRanges, range.covers n = false := by simpa using h
    refine .inl ⟨?_, hnone⟩
    rw [foldCode, List.find?_eq_none.mpr (by simpa using hnone)]

theorem foldCode_foldCode (n : Nat) : foldCode (foldCode n) = foldCode n := by
  rcases foldCode_cases n with ⟨h, -⟩ | ⟨range, hmem, hn⟩
  · rw [h, h]
  · have havoids := List.all_eq_true.mp (List.all_eq_true.mp avoids_foldRanges range hmem)
    rcases foldCode_cases (foldCode n) with ⟨h, -⟩ | ⟨other, hother, hcovers⟩
    · exact h
    · rw [foldCode_of_covers hmem hn,
        FoldRange.not_covers_of_avoids (havoids other hother) hn] at hcovers
      cases hcovers

theorem mem_unfoldCode_iff :
    m ∈ unfoldCode n ↔ ∃ range ∈ foldRanges, range.covers m = true ∧ foldCode m = n := by
  simp only [unfoldCode, List.mem_filterMap, Option.ite_none_right_eq_some, Bool.and_eq_true,
    decide_eq_true_eq, Option.some.injEq]
  constructor
  · rintro ⟨range, hmem, ⟨hle, hcovers⟩, rfl⟩
    refine ⟨range, hmem, hcovers, ?_⟩
    rw [foldCode_of_covers hmem hcovers]
    omega
  · rintro ⟨range, hmem, hcovers, rfl⟩
    have hfold := foldCode_of_covers hmem hcovers
    have hm : range.first + (foldCode m - range.target) = m := by
      rw [FoldRange.covers_iff] at hcovers
      omega
    exact ⟨range, hmem, ⟨by omega, hm.symm ▸ hcovers⟩, hm⟩

theorem mem_cons_unfoldCode_iff :
    m ∈ foldCode n :: unfoldCode (foldCode n) ↔ foldCode m = foldCode n := by
  rw [List.mem_cons, mem_unfoldCode_iff]
  constructor
  · rintro (rfl | ⟨-, -, -, h⟩)
    · exact foldCode_foldCode n
    · exact h
  · intro h
    rcases foldCode_cases m with ⟨hm, -⟩ | ⟨range, hmem, hcovers⟩
    · exact .inl (hm.symm.trans h)
    · exact .inr ⟨range, hmem, hcovers, h⟩

/-- Folding leads from characters to characters, and back. -/
theorem isValidChar_iff_of_foldCode (h : foldCode m = foldCode n) (hn : n.isValidChar) :
    m.isValidChar := by
  have hchars : ∀ k, (foldCode k).isValidChar ↔ k.isValidChar := by
    intro k
    rcases foldCode_cases k with ⟨hk, -⟩ | ⟨range, hmem, hcovers⟩
    · rw [hk]
    · have hrange := List.all_eq_true.mp areChars_foldRanges range hmem
      rw [foldCode_of_covers hmem hcovers]
      rw [FoldRange.covers_iff] at hcovers
      simp only [FoldRange.areChars, Bool.and_eq_true, Bool.or_eq_true, Nat.blt_eq] at hrange
      simp only [Nat.isValidChar]
      omega
  rwa [← hchars m, h, hchars n]

end Text

open Text

/-- The forms of a character are those that fold alike. -/
theorem mem_caseVariants_iff {c d : Char} :
    c ∈ caseVariants d ↔ foldCode c.toNat = foldCode d.toNat := by
  rw [caseVariants, List.mem_map]
  constructor
  · rintro ⟨n, hn, rfl⟩
    have hfold := mem_cons_unfoldCode_iff.mp hn
    have hvalid : n.isValidChar := isValidChar_iff_of_foldCode hfold d.valid
    rw [Char.ofNat, dif_pos hvalid]
    exact hfold
  · intro h
    exact ⟨c.toNat, mem_cons_unfoldCode_iff.mpr h, Char.ofNat_toNat c⟩

end TableQuery
