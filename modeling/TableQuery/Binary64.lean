/-!
Floating point numbers of sixty-four bits as exact data. A number that is not
NaN has a sign and a magnitude, and the magnitude is kept by its code, the low
sixty-three bits of the usual encoding. Codes grow with the magnitudes they
stand for, so the order of numbers is the order of signed codes, and every
finite magnitude is a whole multiple of the smallest positive one, so questions
about exact values are questions about natural numbers.
-/

namespace TableQuery

/-- The code of the infinite magnitude; all smaller codes are finite. -/
def infinityCode : Nat := 0x7FF0000000000000

/-- A floating point number. There is one NaN: its sign and payload are never
observable. Zero has two signs, which compare equal and print differently. -/
inductive Binary64
  | nan
  | signed (negative : Bool) (code : Fin (infinityCode + 1))
deriving DecidableEq, Repr

namespace Binary64

def zero : Binary64 := signed false ⟨0, by decide⟩

instance : Inhabited Binary64 := ⟨zero⟩

/-- Decodes sixty-four bits, the sign first. -/
def ofBits (bits : UInt64) : Binary64 :=
  let code := bits.toNat % Nat.pow 2 63
  if h : code < infinityCode + 1 then
    signed (Nat.pow 2 63 ≤ bits.toNat) ⟨code, h⟩
  else
    nan

/-- Encodes in sixty-four bits; NaN is the quiet one without a payload. -/
def toBits : Binary64 → UInt64
  | nan => 0x7FF8000000000000
  | signed negative code => UInt64.ofNat (code + if negative then Nat.pow 2 63 else 0)

/-- The magnitude of a code as a multiple of 2⁻¹⁰⁷⁴, the smallest positive
number. Codes below 2⁵² count these directly; above, the leading bit is implied
and each further block of 2⁵² codes doubles the step. -/
def unitsOfCode (code : Nat) : Nat :=
  if code < Nat.pow 2 52 then code
  else (Nat.pow 2 52 + code % Nat.pow 2 52) * Nat.pow 2 (code / Nat.pow 2 52 - 1)

def unitsPerOne : Nat := Nat.pow 2 1074

/-- The exact value in units of 2⁻¹⁰⁷⁴, for finite numbers. -/
def units? : Binary64 → Option Int
  | nan => none
  | signed negative code =>
    if code.val < infinityCode then
      some (if negative then -(unitsOfCode code : Int) else unitsOfCode code)
    else
      none

def toInt? (x : Binary64) : Option Int :=
  x.units?.bind fun units =>
    if units % unitsPerOne = 0 then some (units / unitsPerOne) else none

def isNaN : Binary64 → Bool
  | nan => true
  | signed .. => false

def isFinite (x : Binary64) : Bool :=
  x.units?.isSome

/-- The place on the number line: both zeros are at zero, and the infinities are
the two ends. NaN has no place. -/
def rank? : Binary64 → Option Int
  | nan => none
  | signed negative code => some (if negative then -(code.val : Int) else code.val)

def order? (x y : Binary64) : Option Ordering :=
  x.rank?.bind fun a => y.rank?.map fun b => compare a b

/-- Numeric equality: the zeros are equal, and NaN differs from itself. -/
def equals (x y : Binary64) : Bool :=
  x.order? y == some .eq

end Binary64

end TableQuery
