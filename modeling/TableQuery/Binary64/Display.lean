import TableQuery.Binary64.Shortest

/-!
The text of a number for people: its shortest digits in positional notation,
however many zeros that takes. Whole numbers have no fraction and negative zero
keeps its sign.
-/

namespace TableQuery.Binary64

def display : Binary64 → String
  | nan => "NaN"
  | signed negative code =>
    let magnitude :=
      if code.val < infinityCode then (shortest .up code).positional else "inf".toList
    String.ofList (if negative then '-' :: magnitude else magnitude)

end TableQuery.Binary64
