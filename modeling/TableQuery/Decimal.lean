/-!
Decimal numbers and the two ways to write them: positional, with as many zeros
as the point needs, and scientific, with one digit before the point and an
exponent. Both write every digit of the coefficient, so the text of a decimal
depends on nothing but its digits and the place of its point.
-/

namespace TableQuery

/-- The number `coefficient · 10 ^ exponent`. -/
structure Decimal where
  coefficient : Nat
  exponent : Int
deriving DecidableEq, Repr

namespace Decimal

def digits (d : Decimal) : List Char :=
  Nat.toDigits 10 d.coefficient

/-- How many digits stand before the point; zero or less when the first digit
comes after it. -/
def point (d : Decimal) : Int :=
  d.digits.length + d.exponent

def positional (d : Decimal) : List Char :=
  if 0 ≤ d.exponent then
    d.digits ++ List.replicate d.exponent.toNat '0'
  else if 0 < d.point then
    d.digits.take d.point.toNat ++ '.' :: d.digits.drop d.point.toNat
  else
    '0' :: '.' :: (List.replicate (-d.point).toNat '0' ++ d.digits)

/-- The exponent always has a sign, and a single digit has no point. -/
def scientific (d : Decimal) : List Char :=
  let exponent := d.point - 1
  let fraction := d.digits.drop 1
  d.digits.take 1 ++ (if fraction.isEmpty then [] else '.' :: fraction) ++
    'e' :: (if 0 ≤ exponent then '+' else '-') :: Nat.toDigits 10 exponent.natAbs

end Decimal

end TableQuery
