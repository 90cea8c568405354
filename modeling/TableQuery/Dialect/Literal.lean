import TableQuery.Binary64.Rounding

/-!
The values of literals, given their text.
-/

namespace TableQuery.Dialect

/-- Takes the escapes out of the inside of a string literal: a backslash and a
character stand for that character, whatever it is. -/
def unescape : List Char → List Char
  | [] => []
  | ['\\'] => []
  | '\\' :: c :: rest => c :: unescape rest
  | c :: rest => c :: unescape rest

/-- The contents of a string literal with both its quotes. -/
def stringValue? : List Char → Option String
  | _ :: rest => if rest.isEmpty then none else some (String.ofList (unescape rest.dropLast))
  | [] => none

/-- The number that a text begins with: an optional minus sign, then digits with
or without a fraction, or a fraction alone. A point that no digit follows is not
part of it, and a text that begins otherwise has none. -/
def numericPrefix? (text : List Char) : Option Binary64 :=
  let (negative, text) := match text with
    | '-' :: rest => (true, rest)
    | text => (false, text)
  let whole := text.takeWhile Char.isDigit
  let fraction := match text.dropWhile Char.isDigit with
    | '.' :: rest => rest.takeWhile Char.isDigit
    | _ => []
  match whole ++ fraction with
  | [] => none
  | digits => some (Binary64.ofDecimal negative (Nat.ofDigitChars 10 digits 0) (-fraction.length))

end TableQuery.Dialect
