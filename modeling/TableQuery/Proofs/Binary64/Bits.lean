import Mathlib.Algebra.Order.Field.Power
import TableQuery.Proofs.Binary64.Decimals

/-!
Sixty-four bits as the interchange format lays them out: a sign, eleven bits of
exponent and fifty-two of digits, with a leading one in front of the digits unless the
exponent is the least. The greatest exponent is left to the infinities and NaN. A code is
these fields but the sign as one number, and it stands for the same value.
-/

namespace TableQuery.Binary64

def signField (bits : UInt64) : Bool := 2 ^ 63 ≤ bits.toNat

def exponentField (bits : UInt64) : Nat := bits.toNat / 2 ^ 52 % 2 ^ 11

def digitsField (bits : UInt64) : Nat := bits.toNat % 2 ^ 52

/-- The magnitude that an exponent and digits stand for. -/
def fieldsMagnitude (exponent digits : Nat) : ℚ :=
  if exponent = 0 then digits * 2 ^ (-1074 : Int)
  else (2 ^ 52 + digits) * 2 ^ (exponent - 1075 : Int)

/-- The exact value that the bits stand for, unless they are those of an infinity or NaN. -/
def decoded? (bits : UInt64) : Option ℚ :=
  if exponentField bits = 2 ^ 11 - 1 then none
  else some (withSign (signField bits) (fieldsMagnitude (exponentField bits) (digitsField bits)))

theorem magnitude_fields {exponent digits : Nat} (h : digits < 2 ^ 52) :
    magnitude (exponent * 2 ^ 52 + digits) = fieldsMagnitude exponent digits := by
  have hone : (unitsPerOne : ℚ) = 2 ^ (1074 : Int) := by
    rw [unitsPerOne_eq, Nat.cast_pow, Nat.cast_ofNat]
    exact (zpow_natCast (2 : ℚ) 1074).symm
  rw [magnitude, hone, fieldsMagnitude]
  cases exponent with
  | zero =>
      rw [Nat.zero_mul, Nat.zero_add, unitsOfCode_of_lt h, if_pos rfl, zpow_neg, div_eq_mul_inv]
  | succ scale =>
      have hscale : ((scale + 1 : Nat) : Int) - 1075 = scale - 1074 := by omega
      rw [unitsOfCode_block scale digits h, if_neg (Nat.succ_ne_zero scale), hscale,
        zpow_sub₀ two_ne_zero, zpow_natCast, Nat.cast_mul, Nat.cast_add, Nat.cast_pow, Nat.cast_pow,
        Nat.cast_ofNat, mul_div_assoc]

theorem value?_ofBits (bits : UInt64) : (ofBits bits).value? = decoded? bits := by
  have hdigits : digitsField bits < 2 ^ 52 := Nat.mod_lt _ (Nat.two_pow_pos 52)
  have hcode : bits.toNat % 2 ^ 63 = exponentField bits * 2 ^ 52 + digitsField bits := by
    rw [exponentField, digitsField]
    omega
  have hfinite : bits.toNat % 2 ^ 63 < infinityCode ↔ ¬exponentField bits = 2 ^ 11 - 1 := by
    have hexponent : exponentField bits < 2 ^ 11 := Nat.mod_lt _ (Nat.two_pow_pos 11)
    rw [infinityCode]
    omega
  have hmagnitude : magnitude (bits.toNat % 2 ^ 63) =
      fieldsMagnitude (exponentField bits) (digitsField bits) := by
    rw [hcode, magnitude_fields hdigits]
  rw [ofBits, decoded?]
  simp only [Nat.pow_eq]
  by_cases hlast : exponentField bits = 2 ^ 11 - 1
  · rw [if_pos hlast]
    split
    · refine Option.eq_none_iff_forall_ne_some.mpr fun v hv => ?_
      exact hfinite.mp (value?_signed.mp hv).1 hlast
    · exact value?_nan
  · have hcodes := hfinite.mpr hlast
    rw [if_neg hlast, dif_pos (Nat.lt_succ_of_lt hcodes), ← hmagnitude]
    exact value?_signed.mpr ⟨hcodes, rfl⟩

end TableQuery.Binary64
