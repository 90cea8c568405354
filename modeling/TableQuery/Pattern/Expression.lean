import TableQuery.Pattern
import TableQuery.Regex.Reader

/-!
Patterns from the text of a regular expression. The two ways to make one differ
in how the expression is kept to the place where it is tried: by an anchor in
front of it, or by dropping matches that a search finds further on.
-/

namespace TableQuery.Pattern

variable {α : Type}

/-- The expression anchored at the place where the pattern is tried. -/
def anchored? (expression : String) (data : Regex.UnicodeData := .ascii) : Option (Pattern α) :=
  (Regex.readAnchored? data expression.toList).map regex

/-- The expression as it is; its leftmost match counts if it begins at the place
where the pattern is tried. -/
def searched? (expression : String) (data : Regex.UnicodeData := .ascii) : Option (Pattern α) :=
  (Regex.read? data expression.toList).map regex

end TableQuery.Pattern
