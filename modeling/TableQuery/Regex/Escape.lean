import TableQuery.Regex.Basic
import TableQuery.Regex.Flags
import TableQuery.Text.Hex

/-!
The parts of a regular expression that begin with a backslash. Outside of Unicode mode the
classes are those of ASCII and their complements are refused, as is all else that would
match single bytes.
-/

namespace TableQuery.Regex

/-- What the notation takes from the Unicode data besides the three classes: the characters
with a property, by the text that names it, and what the names of groups are made of. -/
structure UnicodeData where
  property? : List Char → Option (List (Nat × Nat))
  isAlphabetic : Char → Bool
  isAlphanumeric : Char → Bool

/-- No properties, and names in ASCII. -/
def UnicodeData.ascii : UnicodeData :=
  ⟨fun _ => none, Char.isAlpha, Char.isAlphanum⟩

inductive Atom
  | char (c : Char)
  | cls (item : SetItem)
  | look (assertion : Assertion)
deriving DecidableEq, Repr

section Escapes

variable (data : UnicodeData) (flags : Flags)

/-- All forms of the characters if case does not count. -/
def Flags.fold (item : SetItem) : SetItem :=
  if flags.has .caseless then .caseless (flags.has .unicode) item else item

def ofRanges (ranges : List (Char × Char)) : SetItem :=
  .union (ranges.map fun (first, last) => .range first last)

def asciiDigits : List (Char × Char) := [('0', '9')]

def asciiBlanks : List (Char × Char) := [('\t', '\r'), (' ', ' ')]

def asciiWords : List (Char × Char) := [('0', '9'), ('A', 'Z'), ('_', '_'), ('a', 'z')]

def insideClass (cls : CharClass) (ascii : List (Char × Char)) : Atom :=
  .cls (if flags.has .unicode then .inside cls else ofRanges ascii)

def outsideClass? (cls : CharClass) : Option Atom :=
  if flags.has .unicode then some (.cls (.outside cls)) else none

/-- Signs may be escaped without need, but letters and digits must have a meaning. -/
def isSuperfluous (c : Char) : Bool :=
  c.toNat < 128 && !c.isAlphanum && c ≠ '<' && c ≠ '>'

def readLetter? : Char → Option Atom
  | 'd' => some (insideClass flags .digit asciiDigits)
  | 's' => some (insideClass flags .space asciiBlanks)
  | 'w' => some (insideClass flags .word asciiWords)
  | 'D' => outsideClass? flags .digit
  | 'S' => outsideClass? flags .space
  | 'W' => outsideClass? flags .word
  | 'n' => some (.char '\n')
  | 'r' => some (.char '\r')
  | 't' => some (.char '\t')
  | 'f' => some (.char '\x0c')
  | 'v' => some (.char '\x0b')
  | 'a' => some (.char '\x07')
  | 'A' => some (.look .start)
  | 'z' => some (.look .stop)
  | 'B' => some (.look (.boundary false (flags.has .unicode)))
  | '<' => some (.look (.wordStart false (flags.has .unicode)))
  | '>' => some (.look (.wordStop false (flags.has .unicode)))
  | c => if isSuperfluous c then some (.char c) else none

/-- The character with a code, by the hexadecimal digits of the code. -/
def ofHex? (digits : List Char) : Option Char :=
  (Text.hexValue? digits).bind fun code =>
    if digits ≠ [] ∧ code.isValidChar then some (.ofNat code) else none

/-- As many characters that count as there are to be. -/
def readCount? : Nat → List Char → Option (List Char × List Char)
  | 0, text => some ([], text)
  | count + 1, text => do
    let (c, rest) ← flags.next? text
    let (found, rest) ← readCount? count rest
    some (c :: found, rest)

/-- A code in braces or of a fixed number of digits. A code of two digits stands for a byte
outside of Unicode mode. -/
def readHex? (count : Nat) (text : List Char) : Option (Atom × List Char) :=
  match flags.next? text with
  | some ('\x7b', rest) => do
    let (digits, rest) ← flags.upTo? '\x7d' rest
    let c ← ofHex? digits
    some (.char c, rest)
  | _ => do
    let (digits, rest) ← readCount? flags count text
    let c ← ofHex? digits
    if flags.has .unicode || count ≠ 2 || c.toNat < 128 then some (.char c, rest) else none

def readPropertyName? (text : List Char) : Option (List Char × List Char) :=
  match flags.next? text with
  | some ('\x7b', rest) => flags.upTo? '\x7d' rest
  | some ('\\', _) => none
  | some (c, rest) => some ([c], rest)
  | none => none

def readProperty? (negated : Bool) (text : List Char) : Option (Atom × List Char) := do
  let (name, rest) ← readPropertyName? flags text
  let ranges ← data.property? name
  let item := flags.fold (.property ranges)
  if flags.has .unicode then some (.cls (if negated then .except item else item), rest) else none

def ofBoundaryName? (name : List Char) : Option Assertion :=
  let unicode := flags.has .unicode
  if name = "start".toList then some (.wordStart false unicode)
  else if name = "end".toList then some (.wordStop false unicode)
  else if name = "start-half".toList then some (.wordStart true unicode)
  else if name = "end-half".toList then some (.wordStop true unicode)
  else none

/-- A word boundary, which may have a name in braces. Braces around anything but letters are
left to be read as a repetition. -/
def readBoundary? (text : List Char) : Option (Atom × List Char) :=
  let plain := (.look (.boundary true (flags.has .unicode)), text)
  match text with
  | '\x7b' :: inside =>
    (flags.next? inside).bind fun (c, _) =>
      if c.isAlpha || c = '-' then do
        let (name, rest) ← flags.upTo? '\x7d' inside
        let assertion ← ofBoundaryName? flags name
        some (.look assertion, rest)
      else
        some plain
  | _ => some plain

def readEscape? : List Char → Option (Atom × List Char)
  | 'x' :: rest => readHex? flags 2 rest
  | 'u' :: rest => readHex? flags 4 rest
  | 'U' :: rest => readHex? flags 8 rest
  | 'p' :: rest => readProperty? data flags false rest
  | 'P' :: rest => readProperty? data flags true rest
  | 'b' :: rest => readBoundary? flags rest
  | c :: rest => (readLetter? flags c).map (·, rest)
  | [] => none

end Escapes

end TableQuery.Regex
