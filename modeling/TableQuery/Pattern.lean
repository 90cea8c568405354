import TableQuery.Regex.Matching
import TableQuery.Text.Offset

/-!
Patterns: composable rules that match the beginning of a text and turn what they
took into a value. A pattern is plain data. It can be matched at an offset of a
whole text, or against a text that is given from its beginning, which needs no
offsets. Choices are ordered and are not revisited once they succeeded.
-/

namespace TableQuery

/-- What a type must offer to hold the values of patterns: the text of a literal
or regular expression, the list of a sequence or repetition, and the mark of an
optional part that is missing. All other values come out of the functions given
to `Pattern.filterMap`. -/
class Capture (α : Type) where
  text : String → α
  list : List α → α
  nothing : α

inductive Pattern (α : Type)
  | literal (text : String)
  /-- The leftmost match of an expression, which must begin right here. -/
  | regex (re : Regex)
  /-- Matches in any case, taking nothing where the inner pattern fails. -/
  | optional (inner : Pattern α)
  | any (choices : List (Pattern α))
  | seq (parts : List (Pattern α))
  /-- One or more elements, with a separator between them if there is one. -/
  | rep (element : Pattern α) (separator : Option (Pattern α))
  /-- Passes the value through a function, which may reject the match. -/
  | filterMap (inner : Pattern α) (f : α → Option α)

namespace Pattern

variable {α : Type}

/-- Takes steps for as long as they succeed and leave less text. -/
def chain (step : List Char → Option (α × List Char)) (text : List Char) : List α × List Char :=
  match step text with
  | some (value, rest) =>
    if rest.length < text.length then
      let (values, rest) := chain step rest
      (value :: values, rest)
    else
      ([], text)
  | none => ([], text)
termination_by text.length

def chainFrom (first next : List Char → Option (α × List Char)) (text : List Char) :
    Option (List α × List Char) :=
  match first text with
  | some (value, rest) =>
    if rest.length < text.length then
      let (values, rest) := chain next rest
      some (value :: values, rest)
    else
      none
  | none => none

variable [Capture α]

mutual

/-- Matches the beginning of a text. -/
def run : Pattern α → List Char → Option (α × List Char)
  | literal expected, text =>
    if expected.toList.isPrefixOf text then
      some (Capture.text expected, text.drop expected.toList.length)
    else
      none
  | regex re, text =>
    match re.find? text with
    | some ⟨[], matched, after⟩ => some (Capture.text (String.ofList matched), after)
    | _ => none
  | optional inner, text => some ((run inner text).getD (Capture.nothing, text))
  | any choices, text => runAny choices text
  | seq parts, text => (runSeq parts text).map fun (values, rest) => (Capture.list values, rest)
  | rep element separator, text =>
    (chainFrom (run element)
      (fun rest => (runSeparator separator rest).bind (run element)) text).map
        fun (values, rest) => (Capture.list values, rest)
  | filterMap inner f, text =>
    (run inner text).bind fun (value, rest) => (f value).map (·, rest)

def runAny : List (Pattern α) → List Char → Option (α × List Char)
  | [], _ => none
  | choice :: choices, text => (run choice text).or (runAny choices text)

def runSeq : List (Pattern α) → List Char → Option (List α × List Char)
  | [], text => some ([], text)
  | part :: parts, text =>
    (run part text).bind fun (value, rest) =>
      (runSeq parts rest).map fun (values, rest) => (value :: values, rest)

def runSeparator : Option (Pattern α) → List Char → Option (List Char)
  | none, text => some text
  | some separator, text => (run separator text).map (·.2)

end

/-! ### Matching at places of a whole text -/

/-- A value and the offset in bytes at which its match ends. -/
structure Match (α : Type) where
  value : α
  stop : Nat
deriving DecidableEq, Repr

/-- Takes one match after the other for as long as each ends further on than the one
before it. The limit is the size of the text: no match ends beyond it, so it bounds
the recursion and never ends it early. -/
def advance (next? : Nat → Option (Match α)) (limit position : Nat) (match? : Option (Match α)) :
    List (Match α) :=
  match match? with
  | some m =>
    if position < m.stop ∧ m.stop ≤ limit then
      m :: advance next? limit m.stop (next? m.stop)
    else
      []
  | none => []
termination_by limit - position

mutual

/-- Matches at an offset in bytes. An offset that is no place in the text matches
nothing. -/
def matchAt? (pattern : Pattern α) (input : String) (position : Nat) : Option (Match α) :=
  (Text.dropBytes? position input.toList).bind fun rest =>
    match pattern with
    | literal expected =>
      if expected.toList.isPrefixOf rest then
        some ⟨Capture.text expected, position + expected.utf8ByteSize⟩
      else
        none
    | regex re =>
      match re.find? rest with
      | some ⟨[], matched, _⟩ =>
        some ⟨Capture.text (String.ofList matched), position + Text.byteLength matched⟩
      | _ => none
    | optional inner => some ((matchAt? inner input position).getD ⟨Capture.nothing, position⟩)
    | any choices => matchAnyAt? choices input position
    | seq parts =>
      (matchSeqAt? parts input position).map fun m => ⟨Capture.list m.value, m.stop⟩
    | rep element separator =>
      let elements := advance
        (fun stop => (afterSeparator? separator input stop).bind (matchAt? element input))
        input.utf8ByteSize position (matchAt? element input position)
      elements.getLast?.map fun last => ⟨Capture.list (elements.map Match.value), last.stop⟩
    | filterMap inner f =>
      (matchAt? inner input position).bind fun m => (f m.value).map (⟨·, m.stop⟩)

def matchAnyAt? : List (Pattern α) → String → Nat → Option (Match α)
  | [], _, _ => none
  | choice :: choices, input, position =>
    (matchAt? choice input position).or (matchAnyAt? choices input position)

def matchSeqAt? : List (Pattern α) → String → Nat → Option (Match (List α))
  | [], _, position => some ⟨[], position⟩
  | part :: parts, input, position =>
    (matchAt? part input position).bind fun m =>
      (matchSeqAt? parts input m.stop).map fun others => ⟨m.value :: others.value, others.stop⟩

/-- Where the next element of a repetition is tried; with no separator between
elements that is right away. -/
def afterSeparator? : Option (Pattern α) → String → Nat → Option Nat
  | none, _, position => some position
  | some separator, input, position => (matchAt? separator input position).map Match.stop

end

end Pattern

end TableQuery
