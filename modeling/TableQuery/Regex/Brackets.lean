import TableQuery.Regex.Escape

/-!
Sets of characters in brackets. A set lists characters, ranges, classes and other sets, and
operators may stand between its lists, all of one rank and taken from the left. It is read
token by token with a stack of the sets that are open.
-/

namespace TableQuery.Regex

inductive SetOperator
  | intersection
  | difference
  | symmetricDifference
deriving DecidableEq, Repr

def SetOperator.apply : SetOperator → SetItem → SetItem → SetItem
  | intersection => .both
  | difference => .difference
  | symmetricDifference => .symmetricDifference

inductive SetToken
  /-- Opens a set, with what its first signs stand for. -/
  | opening (negated : Bool) (items : List SetItem)
  | closing
  | operator (op : SetOperator)
  | item (item : SetItem)
deriving DecidableEq, Repr

section Tokens

variable (data : UnicodeData) (flags : Flags)

def asciiClass? (name : List Char) : Option (List (Char × Char)) :=
  [("alnum", [('0', '9'), ('A', 'Z'), ('a', 'z')]), ("alpha", [('A', 'Z'), ('a', 'z')]),
    ("ascii", [('\x00', '\x7f')]), ("blank", [('\t', '\t'), (' ', ' ')]),
    ("cntrl", [('\x00', '\x1f'), ('\x7f', '\x7f')]), ("digit", asciiDigits),
    ("graph", [('!', '~')]), ("lower", [('a', 'z')]), ("print", [(' ', '~')]),
    ("punct", [('!', '/'), (':', '@'), ('[', '\x60'), ('\x7b', '~')]), ("space", asciiBlanks),
    ("upper", [('A', 'Z')]), ("word", asciiWords),
    ("xdigit", [('0', '9'), ('A', 'F'), ('a', 'f')])].lookup (String.ofList name)

def readClassName? (text : List Char) : Option (List (Char × Char) × List Char) :=
  match text.dropWhile (· ≠ ':') with
  | ':' :: ']' :: rest => (asciiClass? (text.takeWhile (· ≠ ':'))).map (·, rest)
  | _ => none

/-- A class of ASCII after a bracket inside a set, and whether it is negated. -/
def readAsciiClass? : List Char → Option ((Bool × List (Char × Char)) × List Char)
  | ':' :: '^' :: text => (readClassName? text).map fun (ranges, rest) => ((true, ranges), rest)
  | ':' :: text => (readClassName? text).map fun (ranges, rest) => ((false, ranges), rest)
  | _ => none

/-- Whether hyphens come next, which stand for themselves at the start of a set. -/
def readHyphens? (text : List Char) : Option (Bool × List Char) :=
  match h : flags.next? text with
  | some (c, rest) =>
    have := Flags.length_next? h
    if c = '-' then (readHyphens? rest).map fun (_, rest) => (true, rest) else some (false, text)
  | none => none
termination_by text.length

/-- The first items of a set. A closing bracket in first place stands for itself. -/
def readFirst? (negated : Bool) (text : List Char) : Option (SetToken × List Char) := do
  let (hyphens, rest) ← readHyphens? flags text
  let (c, after) ← flags.next? rest
  some (if hyphens then (.opening negated [.range '-' '-'], rest)
    else if c = ']' then (.opening negated [.range ']' ']'], after)
    else (.opening negated [], rest))

def readOpening? (text : List Char) : Option (SetToken × List Char) :=
  match flags.next? text with
  | some (c, rest) => if c = '^' then readFirst? flags true rest else readFirst? flags false text
  | none => none

def readSetAtom? (text : List Char) : Option (Atom × List Char) :=
  match flags.next? text with
  | some ('\\', rest) => readEscape? data flags rest
  | some (c, rest) => some (.char c, rest)
  | none => none

/-- Characters beyond ASCII cannot be listed outside of Unicode mode. -/
def range? (first last : Char) : Option SetItem :=
  if first ≤ last ∧ (flags.has .unicode ∨ last.toNat < 128) then some (.range first last)
  else none

def ofAtom? : Atom → Option SetItem
  | .char c => range? flags c c
  | .cls item => some item
  | .look _ => none

/-- What comes after blanks and the sign of one comment. -/
def passBlanks (text : List Char) : List Char :=
  match text.dropWhile Text.isSpace with
  | '#' :: rest => rest.dropWhile Text.isSpace
  | rest => rest

/-- The sign after a hyphen, by which it is decided whether the hyphen makes a range. The text
of a comment is not passed over here, and at the end it is the first sign again. -/
def peek (text : List Char) : Option Char :=
  if flags.has .verbose then (passBlanks text ++ text).head? else text.head?

/-- A character, a class or a range. A hyphen before a closing bracket or before another hyphen
makes no range. -/
def readSetItem? (text : List Char) : Option (SetToken × List Char) := do
  let (atom, rest) ← readSetAtom? data flags text
  let alone := (ofAtom? flags atom).map fun item => (.item item, rest)
  match flags.next? rest with
  | some ('-', tail) =>
    if peek flags tail = some ']' ∨ peek flags tail = some '-' then alone
    else
      match atom, readSetAtom? data flags tail with
      | .char first, some (.char last, rest) =>
        (range? flags first last).map fun item => (.item item, rest)
      | _, _ => none
  | _ => alone

/-- What comes after a bracket inside a set. What is not the name of a class opens another
set. -/
def readInner? (text : List Char) : Option (SetToken × List Char) :=
  match readAsciiClass? text with
  | some ((negated, ranges), rest) =>
    let item := flags.fold (ofRanges ranges)
    if negated then
      if flags.has .unicode then some (.item (.except item), rest) else none
    else
      some (.item item, rest)
  | none => readOpening? flags text

def readSetToken? (text : List Char) : Option (SetToken × List Char) :=
  match flags.skip text with
  | '[' :: rest => readInner? flags rest
  | ']' :: rest => some (.closing, rest)
  | '&' :: '&' :: rest => some (.operator .intersection, rest)
  | '-' :: '-' :: rest => some (.operator .difference, rest)
  | '~' :: '~' :: rest => some (.operator .symmetricDifference, rest)
  | _ => readSetItem? data flags text

end Tokens

/-- A set that is open: what stands before its last operator, if any, and the items after
it, the latest first. -/
structure OpenSet where
  negated : Bool
  left : Option (SetItem × SetOperator)
  items : List SetItem

section Sets

variable (data : UnicodeData) (flags : Flags)

namespace OpenSet

def push (set : OpenSet) (item : SetItem) : OpenSet :=
  { set with items := item :: set.items }

def operand (set : OpenSet) : SetItem :=
  let listed := flags.fold (.union set.items.reverse)
  match set.left with
  | some (left, op) => op.apply left listed
  | none => listed

def operate (set : OpenSet) (op : SetOperator) : OpenSet :=
  { set with left := some (set.operand flags, op), items := [] }

/-- Closes a set. Outside of Unicode mode a complement is refused. -/
def close? (set : OpenSet) : Option CharSet :=
  if set.negated && !flags.has .unicode then none else
  match set.left with
  | none =>
    if flags.has .unicode then some ⟨set.items.reverse, set.negated, flags.has .caseless⟩
    else some ⟨[set.operand flags], false, false⟩
  | some _ => some ⟨[set.operand flags], set.negated, false⟩

end OpenSet

def ofSet (set : CharSet) : SetItem :=
  let listed := SetItem.union set.items
  let item := if set.caseless then .caseless true listed else listed
  if set.negated then .except item else item

/-- Reads on until the outermost set is closed. A token takes at least one character, which is
checked here so that nothing has to be known about the single readers. -/
def readSetFrom? (set : OpenSet) (outer : List OpenSet) (text : List Char) :
    Option (CharSet × List Char) :=
  match readSetToken? data flags text with
  | some (token, rest) =>
    if rest.length < text.length then
      match token with
      | .opening negated items => readSetFrom? ⟨negated, none, items⟩ (set :: outer) rest
      | .operator op => readSetFrom? (set.operate flags op) outer rest
      | .item item => readSetFrom? (set.push item) outer rest
      | .closing =>
        match set.close? flags, outer with
        | some closed, parent :: outer => readSetFrom? (parent.push (ofSet closed)) outer rest
        | some closed, [] => some (closed, rest)
        | none, _ => none
    else
      none
  | none => none
termination_by text.length

def readSet? (text : List Char) : Option (CharSet × List Char) :=
  match readOpening? flags text with
  | some (.opening negated items, rest) => readSetFrom? data flags ⟨negated, none, items⟩ [] rest
  | _ => none

end Sets

end TableQuery.Regex
