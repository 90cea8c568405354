import TableQuery.Binary64

/-!
Documents: the trees that the text format for databases and results writes down.
Members of an object keep the order in which they were written; the reader makes
sure that their names are distinct.
-/

namespace TableQuery

inductive Document
  | null
  | boolean (value : Bool)
  | number (value : Binary64)
  | string (value : String)
  | array (items : List Document)
  | object (members : List (String × Document))
deriving Inhabited

end TableQuery
