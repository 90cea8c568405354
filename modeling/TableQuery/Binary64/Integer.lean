import TableQuery.Binary64.Rounding

/-!
Numbers as integers of sixty-four bits. Arithmetic on numbers tells whether a number
is an integer: nothing is left of it when its integer part is taken away. The
conversion itself fits every number into the range of these integers, whether the
number belongs there or not.
-/

namespace TableQuery.Binary64

def ofUnits (units : Int) : Binary64 :=
  signed (units < 0) ⟨min infinityCode (codeOfUnits units.natAbs 1), by omega⟩

/-- The number less its integer part. An infinity is its own integer part, and the
difference of two infinities is NaN. -/
def fraction (x : Binary64) : Binary64 :=
  match x.units? with
  | some units => ofUnits (units.tmod unitsPerOne)
  | none => nan

def abs : Binary64 → Binary64
  | nan => nan
  | signed _ code => signed false code

/-- The integer part. Beyond the range of the integers it is the nearer end of that
range, and for NaN it is zero. -/
def toInt64 (x : Binary64) : Int64 :=
  match x, x.units? with
  | _, some units => Int64.ofIntClamp (units.tdiv unitsPerOne)
  | signed negative _, none => if negative then Int64.minValue else Int64.maxValue
  | nan, none => 0

end TableQuery.Binary64
