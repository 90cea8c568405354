import TableQuery.Json.Document
import TableQuery.Json.Number
import TableQuery.Json.Quoted
import TableQuery.Keyed

/-!
Reading documents, strictly: only four characters are blank, nothing may follow
the last item of a container but its end, and nothing but blanks may follow the
document. Containers nest at most 127 deep, and this bound is also what the
reader recurses on.
-/

namespace TableQuery.Json

def isBlank (c : Char) : Bool :=
  c = ' ' || c = '\t' || c = '\n' || c = '\r'

def skipBlanks (text : List Char) : List Char :=
  text.dropWhile isBlank

/-! ### Containers

The loop over items or members takes the reader of what they hold as an
argument. A step must leave less text than it was given; for every reader here
it does.
-/

def readItems? {α : Type} (close : Char) (item : List Char → Option (α × List Char))
    (text : List Char) : Option (List α × List Char) :=
  match item (skipBlanks text) with
  | none => none
  | some (first, rest) =>
    match skipBlanks rest with
    | [] => none
    | c :: rest =>
      if c = close then
        some ([first], rest)
      else if c = ',' ∧ rest.length < text.length then
        (readItems? close item rest).map fun (items, rest) => (first :: items, rest)
      else
        none
termination_by text.length

def readMember? {α : Type} (value : List Char → Option (α × List Char)) :
    List Char → Option ((String × α) × List Char)
  | '"' :: text =>
    (readQuoted? text).bind fun (name, rest) =>
      match skipBlanks rest with
      | ':' :: rest =>
        (value (skipBlanks rest)).map fun (v, rest) => ((String.ofList name, v), rest)
      | _ => none
  | _ => none

/-- Reads one document that begins right here and whose containers nest no
deeper than `depth`. -/
def readValue? (depth : Nat) (text : List Char) : Option (Document × List Char) :=
  match text with
  | 'n' :: 'u' :: 'l' :: 'l' :: rest => some (.null, rest)
  | 't' :: 'r' :: 'u' :: 'e' :: rest => some (.boolean true, rest)
  | 'f' :: 'a' :: 'l' :: 's' :: 'e' :: rest => some (.boolean false, rest)
  | '"' :: rest =>
    (readQuoted? rest).map fun (contents, rest) => (.string (String.ofList contents), rest)
  | '[' :: rest =>
    match depth with
    | 0 => none
    | depth + 1 =>
      match skipBlanks rest with
      | ']' :: rest => some (.array [], rest)
      | rest =>
        (readItems? ']' (readValue? depth) rest).map fun (items, rest) => (.array items, rest)
  | '\x7b' :: rest =>
    match depth with
    | 0 => none
    | depth + 1 =>
      match skipBlanks rest with
      | '\x7d' :: rest => some (.object [], rest)
      | rest =>
        (readItems? '\x7d' (readMember? (readValue? depth)) rest).map fun (members, rest) =>
          (.object (Keyed.ofPairs members), rest)
  | text => (readNumber? text).map fun (x, rest) => (.number x, rest)

def maxDepth : Nat := 127

end TableQuery.Json

def TableQuery.Document.read? (text : String) : Option Document :=
  (Json.readValue? Json.maxDepth (Json.skipBlanks text.toList)).bind fun (document, rest) =>
    if (Json.skipBlanks rest).isEmpty then some document else none
