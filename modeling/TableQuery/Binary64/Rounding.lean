import TableQuery.Binary64

/-!
From exact values to the nearest floating point number. Every conversion goes
through one function on quotients of natural numbers: it rounds to the nearest
representable magnitude, gives a tie to the even code, and goes to infinity
where the nearest magnitude would need a code beyond the finite ones.
-/

namespace TableQuery.Binary64

/-- The nearest natural number to `numerator / denominator`, a half going to
the even neighbour. -/
def roundHalfEven (numerator denominator : Nat) : Nat :=
  let below := numerator / denominator
  let rest := 2 * (numerator % denominator)
  if denominator < rest ∨ rest = denominator ∧ below % 2 = 1 then below + 1 else below

/-- The code nearest to `numerator / denominator` units. The step between
neighbouring magnitudes is one unit up to 2⁵³ units and doubles with every
further binary digit, so the quotient is first divided by the step. Rounding up
to the next power of two needs no care: it lands on the next block of codes. -/
def codeOfUnits (numerator denominator : Nat) : Nat :=
  let scale := (numerator / denominator).log2 - 52
  scale * Nat.pow 2 52 + roundHalfEven numerator (denominator * Nat.pow 2 scale)

def ofQuotient (negative : Bool) (numerator denominator : Nat) : Binary64 :=
  signed negative
    ⟨min infinityCode (codeOfUnits (numerator * unitsPerOne) denominator), by omega⟩

/-- The nearest number to an integer; zero gets the positive sign. -/
def ofInt (n : Int) : Binary64 :=
  ofQuotient (n < 0) n.natAbs 1

/-- The nearest number to `coefficient · 10 ^ exponent` with the given sign. A
coefficient of `n` digits puts the value between 10^(n - 1 + exponent) and
10^(n + exponent), so exponents that are far out are settled without computing
the power of ten. -/
def ofDecimal (negative : Bool) (coefficient : Nat) (exponent : Int) : Binary64 :=
  let digits : Int := (Nat.toDigits 10 coefficient).length
  if coefficient = 0 ∨ digits + exponent < -400 then
    signed negative ⟨0, Nat.succ_pos _⟩
  else if 400 < digits + exponent then
    signed negative (Fin.last infinityCode)
  else
    ofQuotient negative (coefficient * Nat.pow 10 exponent.toNat) (Nat.pow 10 (-exponent).toNat)

end TableQuery.Binary64
