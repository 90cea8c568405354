import Mathlib.Data.Rat.Floor
import TableQuery.Proofs.Binary64.Bits
import TableQuery.Proofs.Json.Rereading

/-!
Whole numbers are printed exactly. On the way to the text they become integers of
sixty-four bits, and that conversion fits every number into its range. It only meets
numbers that are in the range, though the bound before it is not the greatest integer but
the number nearest to that, 2⁶³, which is out of the range: no whole number lies between.
So the text is that of the integer that the number is, and it is read back to an equal
number.
-/

namespace TableQuery

open Binary64 (ofBits decoded? exponentField)

/-- The number goes through as an integer: it is converted to that integer, every layout
prints the integer, and the text is read to what the integer becomes as a number, which is
equal to the number printed. -/
structure Value.KeepsInteger (x : Binary64) (n : Int) : Prop where
  converted : x.toInt64.toInt = n
  printed : ∀ layout, (number x).toDocument.render layout = toString n
  read : (Document.read? (toString n)).bind ofDocument? = some (ofInt n)
  equal : (ofInt n).equals (number x) = true

theorem Binary64.decoded?_eq_intCast_iff {bits : UInt64} {n : Int} :
    decoded? bits = some (n : ℚ) ↔ (ofBits bits).toInt? = some n := by
  rw [← value?_ofBits, value?_eq_intCast_iff]

namespace Json

theorem ofList_integerText (n : Int) : String.ofList (integerText n) = toString n := by
  cases n with
  | ofNat n =>
      rw [integerText, if_neg (by simp), List.nil_append]
      rfl
  | negSucc n =>
      rw [integerText, if_pos (Int.negSucc_lt_zero n), String.ofList_append]
      rfl

variable {x : Binary64} {n : Int}

theorem read?_integerText (h : n.natAbs < 2 ^ 64) :
    Document.read? (String.ofList (integerText n)) = some (.number (.ofInt n)) := by
  have htext : DocumentText maxDepth (.number (.ofInt n)) (integerText n) :=
    .inl (.number (readNumber?_integerText h))
  exact read?_of_holds ⟨[], _, [], by simp, blanks_nil, htext, blanks_nil⟩

theorem keepsInteger_of_toInt? (h : x.toInt? = some n) (hn : n.natAbs < 2 ^ 63) :
    Value.KeepsInteger x n where
  converted := Binary64.toInt_toInt64 h hn
  printed layout := by
    rw [← ofList_integerText, ← numberText_of_integer h hn]
    rfl
  read := by
    rw [← ofList_integerText, read?_integerText (by omega)]
    rfl
  equal := Binary64.equals_of_value?_eq (Binary64.value?_ofInt_of_toInt? h)
    (Binary64.value?_eq_intCast_iff.mpr h)

theorem isInteger_ofBits_iff {bits : UInt64} : isInteger (ofBits bits) = true ↔
    ∃ n : Int, decoded? bits = some (n : ℚ) ∧ |n| < 2 ^ 63 := by
  rw [isInteger_iff, Binary64.HasIntegerText]
  refine exists_congr fun n => ?_
  rw [Binary64.decoded?_eq_intCast_iff, Int.abs_eq_natAbs]
  norm_cast

end Json

namespace Value

/-- A number is printed as an integer if it is finite, nothing follows its point and it is
below 2⁶³ in magnitude, and only then. It keeps the integer that it is, which is zero for
both zeros. Whole numbers that are printed otherwise are at that bound or beyond it, and
the infinities and NaN, with the greatest exponent, are never printed as integers. -/
theorem whole_numbers_kept (bits : UInt64) :
    (Json.isInteger (ofBits bits) = true ↔
      ∃ v, decoded? bits = some v ∧ Int.fract v = 0 ∧ |v| < 2 ^ 63) ∧
    (Json.isInteger (ofBits bits) = true →
      ∃ n : Int, decoded? bits = some (n : ℚ) ∧ KeepsInteger (ofBits bits) n) ∧
    (∀ n : Int, decoded? bits = some (n : ℚ) → Json.isInteger (ofBits bits) = false →
      2 ^ 63 ≤ |n|) ∧
    (exponentField bits = 2 ^ 11 - 1 → Json.isInteger (ofBits bits) = false) := by
  simp only [← Bool.not_eq_true, Json.isInteger_ofBits_iff]
  refine ⟨?_, ?_, fun n hn hlarge => ?_, fun hlast => ?_⟩
  · constructor
    · rintro ⟨n, hn, hlt⟩
      exact ⟨n, hn, Int.fract_intCast n, by exact_mod_cast hlt⟩
    · rintro ⟨v, hv, hwhole, hlt⟩
      obtain ⟨n, rfl⟩ := Int.fract_eq_zero_iff.mp hwhole
      exact ⟨n, hv, by exact_mod_cast hlt⟩
  · rintro ⟨n, hn, hlt⟩
    rw [Int.abs_eq_natAbs] at hlt
    have hinteger := Binary64.decoded?_eq_intCast_iff.mp hn
    exact ⟨n, hn, Json.keepsInteger_of_toInt? hinteger (by omega)⟩
  · exact Int.not_lt.mp fun hlt => hlarge ⟨n, hn, hlt⟩
  · rintro ⟨n, hn, -⟩
    rw [decoded?, if_pos hlast] at hn
    simp at hn

/-- Negative zero, the greatest number below 2⁶³, the least integer of sixty-four bits, which
is at the bound and not below it, and NaN. -/
theorem whole_numbers_kept_samples :
    (number (ofBits 0x8000000000000000)).toDocument.render (.ofPretty false) = "0" ∧
      (number (ofBits 0x43DFFFFFFFFFFFFF)).toDocument.render (.ofPretty false) =
        "9223372036854774784" ∧
      Json.isInteger (ofBits 0xC3E0000000000000) = false ∧ (2 : Int) ^ 63 ≤ |-2 ^ 63| ∧
      Json.isInteger (ofBits 0x7FF8000000000000) = false := by
  have hprinted {bits : UInt64} {n : Int} (hn : decoded? bits = some (n : ℚ))
      (hlt : |(n : ℚ)| < 2 ^ 63) :
      (number (ofBits bits)).toDocument.render (.ofPretty false) = toString n := by
    obtain ⟨hbranch, hkept, -⟩ := whole_numbers_kept bits
    obtain ⟨m, hm, hkeeps⟩ := hkept (hbranch.mpr ⟨n, hn, Int.fract_intCast n, hlt⟩)
    obtain rfl : n = m := by
      rw [hn, Option.some.injEq, Int.cast_inj] at hm
      exact hm
    exact hkeeps.printed _
  have hlarge : Json.isInteger (ofBits 0xC3E0000000000000) = false := by decide +kernel
  obtain ⟨-, -, hbeyond, -⟩ := whole_numbers_kept 0xC3E0000000000000
  obtain ⟨-, -, -, hlast⟩ := whole_numbers_kept 0x7FF8000000000000
  refine ⟨?_, ?_, hlarge, ?_, hlast (by decide)⟩
  · exact hprinted (n := 0) (Binary64.decoded?_eq_intCast_iff.mpr (by decide +kernel))
      (by norm_num)
  · exact hprinted (n := 9223372036854774784)
      (Binary64.decoded?_eq_intCast_iff.mpr (by decide +kernel)) (by norm_num)
  · exact hbeyond (-2 ^ 63) (Binary64.decoded?_eq_intCast_iff.mpr (by decide +kernel)) hlarge

end Value

end TableQuery
