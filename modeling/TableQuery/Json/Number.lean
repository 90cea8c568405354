import TableQuery.Binary64.Integer
import TableQuery.Binary64.Scaling
import TableQuery.Binary64.Shortest

/-!
Numbers in documents. Whole numbers below 2⁶³ are written as integers with all
their digits, so that the many integers among the numbers look like integers;
all others are written with their shortest digits. The format has no text for
NaN and the infinities. Reading is fast rather than exact: it keeps the digits
that fit into sixty-four bits and scales them in floating point, so a whole
number in that range is read to the nearest number, while a text with many digits
or a far point can come out a few steps off. A text that overflows is refused.
-/

namespace TableQuery.Json

/-- The shortest decimal is written positionally while its point stands near
its digits, and scientifically elsewhere. -/
def decimalText (d : Decimal) : List Char :=
  if -5 < d.point ∧ d.point ≤ 16 then d.positional else d.scientific

def integerText (n : Int) : List Char :=
  (if n < 0 then ['-'] else []) ++ Nat.toDigits 10 n.natAbs

def shortestText : Binary64 → List Char
  | .nan => "null".toList
  | .signed negative code =>
    if code.val < infinityCode then
      (if negative then ['-'] else []) ++ decimalText (Binary64.shortest .toEven code)
    else
      "null".toList

/-- Whether a number is whole and below the greatest integer of sixty-four bits. The bound
is that integer as a number, which is 2⁶³, because the integer itself has too many digits
for a number. -/
def isInteger (x : Binary64) : Bool :=
  x.fraction.equals .zero && x.abs.order? (.ofInt Int64.maxValue.toInt) == some .lt

/-- Negative zero is whole and is written as the integer zero. -/
def numberText (x : Binary64) : List Char :=
  if isInteger x then integerText x.toInt64.toInt else shortestText x

def readDigits? (text : List Char) : Option (List Char × List Char) :=
  match text.takeWhile Char.isDigit with
  | [] => none
  | digits => some (digits, text.dropWhile Char.isDigit)

/-- The digits before the point: a zero stands alone, so a zero that more digits
follow leaves them unread. -/
def readWhole? : List Char → Option (List Char × List Char)
  | '0' :: rest => some (['0'], rest)
  | text => readDigits? text

def readFraction? : List Char → Option (List Char × List Char)
  | '.' :: rest => readDigits? rest
  | text => some ([], text)

def readExponent? : List Char → Option (Int × List Char)
  | mark :: rest =>
    if mark = 'e' ∨ mark = 'E' then
      match rest with
      | '-' :: rest =>
        (readDigits? rest).map fun (digits, rest) => (-(Nat.ofDigitChars 10 digits 0 : Int), rest)
      | '+' :: rest =>
        (readDigits? rest).map fun (digits, rest) => ((Nat.ofDigitChars 10 digits 0 : Int), rest)
      | rest =>
        (readDigits? rest).map fun (digits, rest) => ((Nat.ofDigitChars 10 digits 0 : Int), rest)
    else
      some (0, mark :: rest)
  | [] => some (0, [])

/-- Appends digits to a number for as long as the result fits into sixty-four
bits, and leaves the other digits. -/
def takeDigits (n : Nat) : List Char → Nat × List Char
  | [] => (n, [])
  | c :: rest =>
    let next := 10 * n + (c.toNat - '0'.toNat)
    if next < Nat.pow 2 64 then takeDigits next rest else (n, c :: rest)

/-- The number of some digits before and after the point and an exponent. The
digits that do not fit are dropped on either side of the point on its own: those
before it still count as powers of ten, and those after it do not count. -/
def ofDigits (negative : Bool) (whole fraction : List Char) (exponent : Int) : Binary64 :=
  let (coefficient, droppedWhole) := takeDigits 0 whole
  let (coefficient, droppedFraction) := takeDigits coefficient fraction
  Binary64.ofScaled negative coefficient
    (exponent + droppedWhole.length + droppedFraction.length - fraction.length)

def readMagnitude? (negative : Bool) (text : List Char) : Option (Binary64 × List Char) := do
  let (whole, text) ← readWhole? text
  let (fraction, text) ← readFraction? text
  let (exponent, text) ← readExponent? text
  let number := ofDigits negative whole fraction exponent
  if number.isFinite then some (number, text) else none

def readNumber? : List Char → Option (Binary64 × List Char)
  | '-' :: rest => readMagnitude? true rest
  | text => readMagnitude? false text

end TableQuery.Json
