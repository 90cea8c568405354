import TableQuery.Text.Classes

/-!
What a regular expression says about how it is to be read: its flags, and the blanks and
comments between its parts, which count as parts themselves unless the flag for verbose
expressions is set.
-/

namespace TableQuery.Regex

inductive Flag
  | caseless
  | multiline
  | dotAll
  /-- Exchanges greedy and lazy repetition. -/
  | swapped
  | unicode
  | crlf
  | verbose
deriving DecidableEq, Repr

def Flag.ofChar? : Char → Option Flag
  | 'i' => some caseless
  | 'm' => some multiline
  | 's' => some dotAll
  | 'U' => some swapped
  | 'u' => some unicode
  | 'R' => some crlf
  | 'x' => some verbose
  | _ => none

abbrev Flags := List Flag

namespace Flags

def default : Flags := [.unicode]

def has (flags : Flags) (flag : Flag) : Bool := flag ∈ flags

/-- Sets the flags that are named before a minus sign and clears those after it. None is
named twice, and a minus sign has a flag after it. -/
def change? (flags : Flags) (names : List Char) : Option Flags := do
  let on ← (names.takeWhile (· ≠ '-')).mapM Flag.ofChar?
  let off ← (names.dropWhile (· ≠ '-')).tail.mapM Flag.ofChar?
  if (on ++ off).Nodup ∧ names.getLast? ≠ some '-' then
    some (on ++ flags.filter (· ∉ off))
  else
    none

end Flags

/-- Drops blanks and comments, from inside a comment if told so. A comment begins with a
number sign and ends with its line. -/
def skipFrom : Bool → List Char → List Char
  | _, [] => []
  | true, c :: text => skipFrom (c ≠ '\n') text
  | false, c :: text =>
    if c = '#' then skipFrom true text
    else if Text.isSpace c then skipFrom false text
    else c :: text

namespace Flags

variable (flags : Flags)

def skip (text : List Char) : List Char :=
  if flags.has .verbose then skipFrom false text else text

/-- The next character that counts, and what comes after it. -/
def next? (text : List Char) : Option (Char × List Char) :=
  match flags.skip text with
  | c :: rest => some (c, rest)
  | [] => none

theorem length_skipFrom (comment : Bool) (text : List Char) :
    (skipFrom comment text).length ≤ text.length := by
  fun_induction skipFrom comment text with
  | case1 | case5 => exact Nat.le_refl _
  | case2 c text ih | case3 text ih | case4 c text _ _ ih => exact Nat.le_succ_of_le ih

variable {flags} in
theorem length_next? {text rest : List Char} {c : Char} (h : flags.next? text = some (c, rest)) :
    rest.length < text.length := by
  have hskip : (flags.skip text).length ≤ text.length := by
    unfold skip
    split
    · exact length_skipFrom false text
    · exact Nat.le_refl _
  unfold next? at h
  split at h
  · rename_i hcons
    cases h
    rw [hcons, List.length_cons] at hskip
    omega
  · cases h

def upTo? (close : Char) (text : List Char) : Option (List Char × List Char) :=
  match h : flags.next? text with
  | some (c, rest) =>
    have := length_next? h
    if c = close then some ([], rest)
    else (upTo? close rest).map fun (found, rest) => (c :: found, rest)
  | none => none
termination_by text.length

end Flags

end TableQuery.Regex
