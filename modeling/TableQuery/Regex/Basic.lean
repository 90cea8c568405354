import TableQuery.Text.CaseFolding
import TableQuery.Text.Classes

/-!
Regular expressions as data. A repetition with bounds is written out, in the order in which
its ways to match are preferred.
-/

namespace TableQuery

inductive CharClass
  | digit
  | space
  | word
deriving DecidableEq, Repr

def CharClass.contains : CharClass → Char → Bool
  | digit, c => Text.isDigit c
  | space, c => Text.isSpace c
  | word, c => Text.isWord c

/-- The forms that a character has where case does not count. -/
def caseVariants (c : Char) : List Char :=
  let folded := Text.foldCode c.toNat
  (folded :: Text.unfoldCode folded).map .ofNat

/-- What may be listed between brackets, nested sets and operations on sets included. -/
inductive SetItem
  | range (first last : Char)
  | inside (cls : CharClass)
  | outside (cls : CharClass)
  /-- The characters with a property, as ranges of codes. -/
  | property (ranges : List (Nat × Nat))
  | either (first second : SetItem)
  | both (first second : SetItem)
  | except (item : SetItem)
  /-- All forms of the characters, or of ASCII letters only. -/
  | caseless (unicode : Bool) (item : SetItem)
deriving DecidableEq, Repr

namespace SetItem

def contains : SetItem → Char → Bool
  | range first last, c => first ≤ c && c ≤ last
  | inside cls, c => cls.contains c
  | outside cls, c => !cls.contains c
  | property ranges, c => Text.inRanges ranges c.toNat
  | either first second, c => first.contains c || second.contains c
  | both first second, c => first.contains c && second.contains c
  | except item, c => !item.contains c
  | caseless true item, c => (caseVariants c).any item.contains
  | caseless false item, c => item.contains c.toLower || item.contains c.toUpper

def nothing : SetItem :=
  property []

def union (items : List SetItem) : SetItem :=
  items.foldr either nothing

def difference (first second : SetItem) : SetItem :=
  both first (except second)

def symmetricDifference (first second : SetItem) : SetItem :=
  either (difference first second) (difference second first)

end SetItem

/-- A set of characters. Case is folded before the set is negated. -/
structure CharSet where
  items : List SetItem
  negated : Bool := false
  caseless : Bool := false
deriving DecidableEq, Repr

namespace CharSet

def singleton (c : Char) : CharSet := ⟨[.range c c], false, false⟩

def ofClass (cls : CharClass) : CharSet := ⟨[.inside cls], false, false⟩

def anyOnLine : CharSet := ⟨[.range '\n' '\n'], true, false⟩

def contains (set : CharSet) (c : Char) : Bool :=
  let candidates := if set.caseless then caseVariants c else [c]
  (candidates.any fun d => set.items.any (·.contains d)) != set.negated

end CharSet

/-- Conditions on the neighbours of a place. Where lines end with a carriage return and a line
feed, there is no start and no end of a line between the two. Words are made of Unicode word
characters or of those in ASCII. -/
inductive Assertion
  | start
  | stop
  | lineStart (crlf : Bool)
  | lineStop (crlf : Bool)
  /-- Exactly one of the two neighbours is a word character, or not exactly one. -/
  | boundary (present unicode : Bool)
  /-- A word begins here, or only none goes on to here. -/
  | wordStart (half unicode : Bool)
  | wordStop (half unicode : Bool)
deriving DecidableEq, Repr

inductive Regex
  | empty
  | chars (set : CharSet)
  | look (assertion : Assertion)
  | seq (first second : Regex)
  | alt (first second : Regex)
  /-- One or more times, preferring more of them if greedy and fewer if not. -/
  | plus (greedy : Bool) (body : Regex)
  | star (greedy : Bool) (body : Regex)
deriving DecidableEq, Repr

namespace Regex

def start : Regex := look .start

def stop : Regex := look .stop

def boundary (present : Bool) : Regex := look (.boundary present true)

/-- Whether each match takes a character. -/
def takes : Regex → Bool
  | chars _ => true
  | seq first second => first.takes || second.takes
  | alt first second => first.takes && second.takes
  | plus _ body => body.takes
  | empty | look _ | star _ _ => false

/-- Whether no match takes a character. -/
def takesNothing : Regex → Bool
  | empty | look _ => true
  | chars _ => false
  | seq first second | alt first second => first.takesNothing && second.takesNothing
  | plus _ body | star _ body => body.takesNothing

def opt (greedy : Bool) (body : Regex) : Regex :=
  if greedy then alt body empty else alt empty body

def sequence : List Regex → Regex
  | [] => empty
  | [re] => re
  | re :: rest => seq re (sequence rest)

def choice : List Regex → Regex
  | [] => empty
  | [re] => re
  | re :: rest => alt re (choice rest)

/-- Any number of times. What can match without taking a character is tried once before it is
decided whether it is repeated, which makes a difference to the order of the matches. -/
def anyNumber (greedy : Bool) (body : Regex) : Regex :=
  if body.takes then star greedy body else opt greedy (plus greedy body)

def upTo (greedy : Bool) (body : Regex) : Nat → Regex
  | 0 => empty
  | 1 => opt greedy body
  | count + 1 => opt greedy (seq body (upTo greedy body count))

/-- At least `least` times, and at most `most` times where there is a bound. It makes no sense
to repeat what takes nothing. -/
def repeated (greedy : Bool) (body : Regex) (least : Nat) (most : Option Nat) : Regex :=
  let least := if body.takesNothing then min least 1 else least
  let most := if body.takesNothing then some (min (most.getD 1) 1) else most
  match most with
  | none =>
    match least with
    | 0 => anyNumber greedy body
    | least + 1 => sequence (List.replicate least body ++ [plus greedy body])
  | some most =>
    if most ≤ least then
      sequence (List.replicate least body)
    else
      sequence (List.replicate least body ++ [upTo greedy body (most - least)])

/-- A word that matches itself in any mix of cases. -/
def caseless (word : String) : Regex :=
  sequence (word.toList.map fun c => chars { CharSet.singleton c with caseless := true })

def anchored (re : Regex) : Regex :=
  seq start re

end Regex

end TableQuery
