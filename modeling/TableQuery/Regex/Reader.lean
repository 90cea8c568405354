import TableQuery.Regex.Brackets

/-!
Reading regular expressions from their usual notation. The text is read token by token, each
of which is found by looking at its first characters under the flags of the innermost group,
and the tokens are put together with a stack of open groups. The limits on the depth and on
the size of expressions are left out, and alternatives stay as they are written: what all of
them begin with is not taken out of them.
-/

namespace TableQuery.Regex

inductive Token
  | item (re : Regex)
  /-- Opens a group, which may have its own flags and a name. -/
  | opening (flags : Flags) (name : Option (List Char))
  | closing
  | flags (flags : Flags)
  | bar
  | repetition (least : Nat) (most : Option Nat) (greedy : Bool)
deriving DecidableEq, Repr

section Tokens

variable (data : UnicodeData) (flags : Flags)

/-- A question mark makes a repetition lazy, or greedy if that is exchanged. -/
def readLazy (text : List Char) : Bool × List Char :=
  match text with
  | '?' :: rest => (flags.has .swapped, rest)
  | _ => (!flags.has .swapped, text)

def readRepetition (least : Nat) (most : Option Nat) (text : List Char) : Token × List Char :=
  let (greedy, rest) := readLazy flags text
  (.repetition least most greedy, rest)

def readDigits (text : List Char) : List Char × List Char :=
  match h : flags.next? text with
  | some (c, rest) =>
    have := Flags.length_next? h
    if c.isDigit then
      let (digits, rest) := readDigits rest
      (c :: digits, rest)
    else
      ([], text)
  | none => ([], text)
termination_by text.length

/-- Blanks around the bounds of a repetition never count. -/
def trim (text : List Char) : List Char :=
  (flags.skip text).dropWhile Text.isSpace

/-- A bound of a repetition, which has 32 bits. -/
def readBound? (text : List Char) : Option (Nat × List Char) :=
  let (digits, rest) := readDigits flags (trim flags text)
  let bound := Nat.ofDigitChars 10 digits 0
  if digits ≠ [] ∧ bound < UInt32.size then some (bound, rest) else none

/-- The mark of a lazy repetition may come after blanks behind the bounds. -/
def endBounds (least : Nat) (most : Option Nat) (text : List Char) : Token × List Char :=
  match flags.next? text with
  | some ('?', rest) => (.repetition least most (flags.has .swapped), rest)
  | _ => (.repetition least most (!flags.has .swapped), text)

/-- The bounds of a repetition after its opening brace; the greater one must not come first. -/
def readBounds? (text : List Char) : Option (Token × List Char) := do
  let (least, rest) ← readBound? flags text
  match trim flags rest with
  | '\x7d' :: rest => some (endBounds flags least (some least) rest)
  | ',' :: rest =>
    match flags.next? rest with
    | some ('\x7d', rest) => some (endBounds flags least none rest)
    | _ => do
      let (most, rest) ← readBound? flags rest
      match trim flags rest with
      | '\x7d' :: rest =>
        if least ≤ most then some (endBounds flags least (some most) rest) else none
      | _ => none
  | _ => none

def isNameStart (c : Char) : Bool := c = '_' || data.isAlphabetic c

def isNameRest (c : Char) : Bool :=
  c = '_' || c = '.' || c = '[' || c = ']' || data.isAlphanumeric c

def readGroupName? (text : List Char) : Option (List Char × List Char) :=
  match text.takeWhile (· ≠ '>'), text.dropWhile (· ≠ '>') with
  | c :: name, '>' :: rest =>
    if isNameStart data c ∧ name.all (isNameRest data) then some (c :: name, rest) else none
  | _, _ => none

/-- The flags after an opening parenthesis and a question mark. They hold for the group, or for
the rest of the group around it if the parenthesis is closed at once. -/
def readFlags? (text : List Char) : Option (Token × List Char) := do
  let names := text.takeWhile fun c => c ≠ ':' ∧ c ≠ ')'
  let changed ← flags.change? names
  match text.dropWhile fun c => c ≠ ':' ∧ c ≠ ')' with
  | ':' :: rest => some (.opening changed none, rest)
  | ')' :: rest => if names.isEmpty then none else some (.flags changed, rest)
  | _ => none

def readGroup? (text : List Char) : Option (Token × List Char) :=
  match flags.skip text with
  | '?' :: 'P' :: '<' :: rest =>
    (readGroupName? data rest).map fun (name, rest) => (.opening flags (some name), rest)
  | '?' :: '<' :: rest =>
    (readGroupName? data rest).map fun (name, rest) => (.opening flags (some name), rest)
  | '?' :: rest => readFlags? flags rest
  | _ => some (.opening flags none, text)

def anyChar? : Option Regex :=
  if !flags.has .unicode then none
  else if flags.has .dotAll then some (chars ⟨[], true, false⟩)
  else if flags.has .crlf then some (chars ⟨[.range '\r' '\r', .range '\n' '\n'], true, false⟩)
  else some (chars .anyOnLine)

def lineStart : Assertion :=
  if flags.has .multiline then .lineStart (flags.has .crlf) else .start

def lineStop : Assertion :=
  if flags.has .multiline then .lineStop (flags.has .crlf) else .stop

def ofAtom : Atom → Regex
  | .char c =>
    if flags.has .unicode then chars ⟨[.range c c], false, flags.has .caseless⟩
    else chars ⟨[flags.fold (.range c c)], false, false⟩
  | .cls item => chars ⟨[item], false, false⟩
  | .look assertion => look assertion

def readToken? (text : List Char) : Option (Token × List Char) := do
  let (c, rest) ← flags.next? text
  match c with
  | '(' => readGroup? data flags rest
  | ')' => some (.closing, rest)
  | '|' => some (.bar, rest)
  | '*' => some (readRepetition flags 0 none rest)
  | '+' => some (readRepetition flags 1 none rest)
  | '?' => some (readRepetition flags 0 (some 1) rest)
  | '\x7b' => readBounds? flags rest
  | '[' => (readSet? data flags rest).map fun (set, rest) => (.item (chars set), rest)
  | '\\' => (readEscape? data flags rest).map fun (atom, rest) => (.item (ofAtom flags atom), rest)
  | '.' => (anyChar? flags).map fun re => (.item re, rest)
  | '^' => some (.item (look (lineStart flags)), rest)
  | '$' => some (.item (look (lineStop flags)), rest)
  | c => some (.item (ofAtom flags (.char c)), rest)

end Tokens

/-! ### Expressions -/

/-- An open group: its finished alternatives and the items of the current one,
both with the latest first. What comes after flags has no item to repeat. -/
structure Group where
  flags : Flags
  alternatives : List Regex
  items : List Regex
  afterFlags : Bool

namespace Group

def opened (flags : Flags) : Group := ⟨flags, [], [], false⟩

def push (group : Group) (re : Regex) : Group :=
  { group with items := re :: group.items, afterFlags := false }

def setFlags (group : Group) (flags : Flags) : Group :=
  { group with flags, afterFlags := true }

def endAlternative (group : Group) : Group :=
  { group with
    alternatives := sequence group.items.reverse :: group.alternatives, items := [],
    afterFlags := false }

def toRegex (group : Group) : Regex :=
  choice group.endAlternative.alternatives.reverse

/-- Applies a repetition to the latest item; there must be one. -/
def repeatLatest? (group : Group) (least : Nat) (most : Option Nat) (greedy : Bool) :
    Option Group :=
  match group.afterFlags, group.items with
  | false, latest :: items =>
    some { group with items := repeated greedy latest least most :: items }
  | _, _ => none

end Group

/-- The innermost open group, those around it, and the names of groups so far. -/
structure Groups where
  group : Group
  outer : List Group
  names : List (List Char)

namespace Groups

def initial : Groups := ⟨.opened .default, [], []⟩

/-- Every group that is closed must have been opened, and no two may have one name. The names
have no other meaning here. -/
def step? (groups : Groups) : Token → Option Groups
  | .item re => some { groups with group := groups.group.push re }
  | .opening flags name =>
    let opened : Groups :=
      { group := .opened flags, outer := groups.group :: groups.outer,
        names := name.toList ++ groups.names }
    if opened.names.Nodup then some opened else none
  | .closing =>
    match groups.outer with
    | parent :: outer => some { groups with group := parent.push groups.group.toRegex, outer }
    | [] => none
  | .flags flags => some { groups with group := groups.group.setFlags flags }
  | .bar => some { groups with group := groups.group.endAlternative }
  | .repetition least most greedy =>
    (groups.group.repeatLatest? least most greedy).map fun group => { groups with group }

end Groups

section Expressions

variable (data : UnicodeData)

/-- Reads tokens for as long as there are any, and gives the groups that are open then with the
blanks and comments that are left. A token takes at least one character, which is checked here
so that nothing has to be known about the single readers. -/
def readFrom? (groups : Groups) (text : List Char) : Option (Groups × List Char) :=
  if (groups.group.flags.skip text).isEmpty then some (groups, text) else
  match readToken? data groups.group.flags text with
  | some (token, rest) =>
    if rest.length < text.length then (groups.step? token).bind fun groups => readFrom? groups rest
    else none
  | none => none
termination_by text.length

def read? (text : List Char) : Option Regex := do
  let (groups, _) ← readFrom? data .initial text
  if groups.outer.isEmpty then some groups.group.toRegex else none

/-- Reads an expression that may match at the start of a text only. Its text is
put into a group behind an anchor, so that the anchor holds for all of its
alternatives. -/
def readAnchored? (text : List Char) : Option Regex :=
  read? data ("^(?:".toList ++ text ++ [')'])

end Expressions

end TableQuery.Regex
