import TableQuery.Dialect
import TableQuery.Text.Quoted

/-!
Reading a whole text as one query.
-/

namespace TableQuery

/-- Why a text is not a query: it does not begin with one, or something follows
the one it begins with, at an offset in bytes. -/
inductive SyntaxError
  | invalidQuery
  | trailingInput (position : Nat) (remainder : String)
deriving DecidableEq, Repr

def SyntaxError.message : SyntaxError → String
  | invalidQuery => "Invalid query"
  | trailingInput position remainder =>
    "Invalid query: unexpected input at position " ++ toString position ++ ": " ++
      Text.quoted remainder

/-- Reads a text as a query. -/
def Query.parse (text : String) : Except SyntaxError Query :=
  match Dialect.query.run text.toList with
  | none => .error .invalidQuery
  | some (phrase, rest) =>
    if rest.isEmpty then
      match phrase with
      | .query query => .ok query
      | _ => .error .invalidQuery
    else
      .error (.trailingInput (Text.byteLength text.toList - Text.byteLength rest)
        (String.ofList rest))

end TableQuery
