import TableQuery.Binary64.Rounding

/-!
Whole numbers scaled by powers of ten in floating point arithmetic. The whole
number and the power are each rounded to a number, and their product or quotient
is rounded again. So the result can lie a few steps from the nearest number to
the exact value, and it can overflow where the exact value does not. As long as
the whole number stays below 2⁵³ and the power is at most 10²², both are exact
and only one rounding is left.
-/

namespace TableQuery.Binary64

/-- The greatest exponent whose power of ten is finite. -/
def maxPower : Nat := 308

/-- The code nearest to a natural number. -/
def codeOfNat (n : Nat) : Nat :=
  codeOfUnits (n * unitsPerOne) 1

def codeOfPower (exponent : Nat) : Nat :=
  codeOfNat (Nat.pow 10 exponent)

def mulCode (a b : Nat) : Nat :=
  codeOfUnits (unitsOfCode a * unitsOfCode b) unitsPerOne

def divCode (a b : Nat) : Nat :=
  codeOfUnits (unitsOfCode a * unitsPerOne) (unitsOfCode b)

/-- Multiplies by a power of ten. Zero stays zero, however great the power. -/
def scaleUp (code exponent : Nat) : Nat :=
  if code = 0 ∨ exponent = 0 then code
  else if maxPower < exponent then infinityCode
  else mulCode code (codeOfPower exponent)

@[simp] theorem scaleUp_zero (code : Nat) : scaleUp code 0 = code := by
  simp [scaleUp]

/-- Divides by a power of ten. One that is not finite is divided out in steps of
the greatest that is, until nothing is left of the magnitude. -/
def scaleDown (code exponent : Nat) : Nat :=
  if code = 0 then 0
  else if maxPower < exponent then
    scaleDown (divCode code (codeOfPower maxPower)) (exponent - maxPower)
  else divCode code (codeOfPower exponent)
termination_by exponent
decreasing_by
  simp only [maxPower] at *
  omega

/-- The number `coefficient · 10 ^ exponent`, scaled in floating point. -/
def ofScaled (negative : Bool) (coefficient : Nat) (exponent : Int) : Binary64 :=
  let code := codeOfNat coefficient
  let scaled :=
    if 0 ≤ exponent then scaleUp code exponent.toNat else scaleDown code (-exponent).toNat
  signed negative ⟨min infinityCode scaled, by omega⟩

end TableQuery.Binary64
