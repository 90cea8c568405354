import TableQuery.Json.Document
import TableQuery.Json.Number
import TableQuery.Json.Quoted

/-!
The text of a document. There is one printer, and the two layouts differ only in
the blanks that they put between the same tokens.
-/

namespace TableQuery.Json

/-- Where blanks go: what starts a line at a given depth, and what stands
between the name of a member and its value. -/
structure Layout where
  newline : Nat → List Char
  colon : List Char

namespace Layout

def compact : Layout := ⟨fun _ => [], [':']⟩

/-- One item a line, indented by two for every level. -/
def pretty : Layout := ⟨fun depth => '\n' :: List.replicate (2 * depth) ' ', [':', ' ']⟩

def ofPretty (isPretty : Bool) : Layout :=
  if isPretty then pretty else compact

end Layout

/-! ### Printing

An empty array or object takes no line of its own; otherwise the first item is
printed by the container and the others follow, each after its comma.
-/

mutual

def write (layout : Layout) (depth : Nat) : Document → List Char
  | .null => "null".toList
  | .boolean true => "true".toList
  | .boolean false => "false".toList
  | .number x => numberText x
  | .string s => quote s.toList
  | .array [] => ['[', ']']
  | .array (item :: items) =>
    '[' :: (layout.newline (depth + 1) ++ write layout (depth + 1) item ++
      writeItems layout (depth + 1) items ++ layout.newline depth ++ [']'])
  | .object [] => ['\x7b', '\x7d']
  | .object ((name, value) :: members) =>
    '\x7b' :: (layout.newline (depth + 1) ++ quote name.toList ++ layout.colon ++
      write layout (depth + 1) value ++
      writeMembers layout (depth + 1) members ++ layout.newline depth ++ ['\x7d'])

def writeItems (layout : Layout) (depth : Nat) : List Document → List Char
  | [] => []
  | item :: items =>
    ',' :: (layout.newline depth ++ write layout depth item ++ writeItems layout depth items)

def writeMembers (layout : Layout) (depth : Nat) : List (String × Document) → List Char
  | [] => []
  | (name, value) :: members =>
    ',' :: (layout.newline depth ++ quote name.toList ++ layout.colon ++
      write layout depth value ++ writeMembers layout depth members)

end

end TableQuery.Json

def TableQuery.Document.render (document : Document) (layout : Json.Layout) : String :=
  String.ofList (Json.write layout 0 document)
