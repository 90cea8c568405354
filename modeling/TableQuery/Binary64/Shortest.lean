import TableQuery.Binary64
import TableQuery.Decimal

/-!
The shortest decimal that reads back as a given number. The decimals that read
back form an interval, bounded by the halfway points to the two neighbouring
magnitudes, with the ends included when the code is even, because a tie rounds
to the even code. The search walks through ever finer decimal grids. If any
point of a grid lies in the interval, so does one of the two grid points next
to the exact value, so only these two are tried.
-/

namespace TableQuery.Binary64

inductive Tie
  | toEven
  | up
deriving DecidableEq, Repr

/-- The decimals that read back as one finite magnitude. Its exact value and the
two halfway points are counted in halves of 2⁻¹⁰⁷⁴, so that all three are
natural numbers. -/
structure Interval where
  lower : Nat
  value : Nat
  upper : Nat
  closed : Bool

def interval (code : Nat) : Interval where
  lower := unitsOfCode (code - 1) + unitsOfCode code
  value := 2 * unitsOfCode code
  upper := unitsOfCode code + unitsOfCode (code + 1)
  closed := code % 2 = 0

namespace Interval

/-- Whether `point / scale` halves of 2⁻¹⁰⁷⁴ lie in the interval. -/
def contains (i : Interval) (point scale : Nat) : Bool :=
  if i.closed then
    i.lower * scale ≤ point && point ≤ i.upper * scale
  else
    i.lower * scale < point && point < i.upper * scale

/-- The multiple of `10 ^ exponent` that lies in the interval and is nearest to
the exact value, if there is one. Distances are compared after multiplying by
`scale`, which makes them whole. -/
def nearest? (i : Interval) (tie : Tie) (exponent : Int) : Option Decimal :=
  let step := Nat.pow 10 exponent.toNat * (2 * unitsPerOne)
  let scale := Nat.pow 10 (-exponent).toNat
  let exact := i.value * scale
  let below := exact / step
  let above := below + 1
  let takeAbove :=
    match compare (above * step - exact) (exact - below * step) with
    | .lt => true
    | .gt => false
    | .eq => match tie with
      | .toEven => below % 2 = 1
      | .up => true
  match i.contains (below * step) scale, i.contains (above * step) scale with
  | true, true => some ⟨if takeAbove then above else below, exponent⟩
  | true, false => some ⟨below, exponent⟩
  | false, true => some ⟨above, exponent⟩
  | false, false => none

end Interval

/-- How many digits the magnitude has before its decimal point, or minus the
number of zeros right after it. The factor 10⁴⁰⁰ brings even the smallest
magnitude above one without touching its digits. -/
def pointOfCode (code : Nat) : Int :=
  (Nat.toDigits 10 (unitsOfCode code * Nat.pow 10 400 / unitsPerOne)).length - 400

/-- The shortest decimal that reads back as the finite magnitude of `code`, and
of several the one nearest to it. Seventeen digits always suffice; the search
begins at the grid whose only point near the value is the power of ten above
it. -/
def shortest (tie : Tie) (code : Nat) : Decimal :=
  if code = 0 then
    ⟨0, 0⟩
  else
    ((List.range 18).findSome? fun (digits : Nat) =>
      (interval code).nearest? tie (pointOfCode code - digits)).getD ⟨0, 0⟩

end TableQuery.Binary64
