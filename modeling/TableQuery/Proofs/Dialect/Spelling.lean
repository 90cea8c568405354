import TableQuery.Dialect.Literal
import TableQuery.Proofs.Text.Folding
import TableQuery.Query

/-!
The grammar of the dialect as a relation between queries and the texts that
write them down. A text is a row of tokens with blanks between them, and the
relation says which rows there are for a query; it knows nothing of how a text
is read. What counts as a token is a parameter, because fewer spellings are
promised than are accepted: a keyword may be read from a long s, and a number
from the digits of any script, but nobody has to write them so.
-/

namespace TableQuery

namespace Text

def Blanks (s : List Char) : Prop := ∀ c ∈ s, isSpace c = true

instance (s : List Char) : Decidable (Blanks s) :=
  decidable_of_iff (s.all isSpace = true) List.all_eq_true

/-- Blanks where the grammar wants at least one. -/
def Gap (s : List Char) : Prop := s ≠ [] ∧ Blanks s

instance (s : List Char) : Decidable (Gap s) :=
  inferInstanceAs (Decidable (_ ∧ _))

/-- Names of tables and columns. Keywords are names, too. -/
def IsName (name : String) : Prop :=
  name.toList ≠ [] ∧ ∀ c ∈ name.toList, isWord c = true

instance (name : String) : Decidable (IsName name) :=
  decidable_of_iff (name.toList ≠ [] ∧ name.toList.all isWord = true)
    (by rw [IsName, List.all_eq_true])

end Text

open Text

/-- The inside of a string literal and what it stands for: a backslash and a
character stand for that character, and a line feed is never escaped. -/
inductive QuotedBody (quote : Char) : List Char → List Char → Prop
  | nil : QuotedBody quote [] []
  | plain {c : Char} {s body : List Char} :
      c ≠ quote → c ≠ '\\' → QuotedBody quote s body → QuotedBody quote (c :: s) (c :: body)
  | escaped {c : Char} {s body : List Char} :
      c ≠ '\n' → QuotedBody quote s body → QuotedBody quote (c :: s) ('\\' :: c :: body)

/-- Escapes the quote and the backslash and nothing else. -/
def escape (quote : Char) (s : List Char) : List Char :=
  s.flatMap fun c => if c = quote ∨ c = '\\' then ['\\', c] else [c]

def isQuote (c : Char) : Bool := c = '"' || c = '\x27'

def isNumberChar (c : Char) : Bool := isDigit c || c = '.' || c = '-'

def truthWord (b : Bool) : String := if b then "true" else "false"

/-- The texts that count as keywords, strings and numbers. -/
structure Lexicon where
  keyword : String → List Char → Prop
  string : String → List Char → Prop
  number : Binary64 → List Char → Prop

namespace Lexicon

/-- Tokens as they are meant to be written: keywords in any mix of capital and
small letters, strings with no more escapes than they need, and numbers in ASCII
characters. -/
def plain : Lexicon where
  keyword word s := s.map Char.toLower = word.toList.map Char.toLower
  string contents s :=
    ∃ quote, isQuote quote = true ∧ s = quote :: (escape quote contents.toList ++ [quote])
  number n s :=
    (∀ c ∈ s, c.isDigit = true ∨ c = '.' ∨ c = '-') ∧ Dialect.numericPrefix? s = some n

instance (word : String) (s : List Char) : Decidable (plain.keyword word s) :=
  inferInstanceAs (Decidable (_ = _))

def accepted : Lexicon where
  keyword := FoldsTo
  string contents s :=
    ∃ quote body, isQuote quote = true ∧ QuotedBody quote contents.toList body ∧
      s = quote :: (body ++ [quote])
  number n s :=
    s ≠ [] ∧ (∀ c ∈ s, isNumberChar c = true) ∧ Dialect.numericPrefix? s = some n

instance (word : String) (s : List Char) : Decidable (accepted.keyword word s) :=
  inferInstanceAs (Decidable (FoldsTo word s))

end Lexicon

variable (lexicon : Lexicon)

def FieldRef.text (field : FieldRef) : List Char :=
  field.table.toList ++ '.' :: field.column.toList

inductive FurtherFields : List FieldRef → List Char → Prop
  | nil : FurtherFields [] []
  | cons {field : FieldRef} {fields : List FieldRef} {before after s : List Char} :
      Blanks before → Blanks after → FurtherFields fields s →
      FurtherFields (field :: fields) (before ++ ',' :: (after ++ field.text ++ s))

inductive FieldList.Spelled : FieldList → List Char → Prop
  | wildcard : FieldList.Spelled .wildcard ['*']
  | fields {field : FieldRef} {fields : List FieldRef} {s : List Char} :
      FurtherFields fields s → FieldList.Spelled (.fields (field :: fields)) (field.text ++ s)

inductive Value.Spelled : Value → List Char → Prop
  | null {s : List Char} : lexicon.keyword "null" s → Value.Spelled .null s
  | boolean {b : Bool} {s : List Char} :
      lexicon.keyword (truthWord b) s → Value.Spelled (.boolean b) s
  | number {n : Binary64} {s : List Char} : lexicon.number n s → Value.Spelled (.number n) s
  | string {contents : String} {s : List Char} :
      lexicon.string contents s → Value.Spelled (.string contents) s

inductive Operand.Spelled : Operand → List Char → Prop
  | field (field : FieldRef) : Operand.Spelled (.field field) field.text
  | literal {value : Value} {s : List Char} :
      value.Spelled lexicon s → Operand.Spelled (.literal value) s

inductive Condition.Spelled : Condition → List Char → Prop
  | mk {left right : Operand} {l before after r : List Char} (operator : CompareOp) :
      left.Spelled lexicon l → Blanks before → Blanks after → right.Spelled lexicon r →
      Condition.Spelled ⟨left, operator, right⟩
        (l ++ before ++ operator.symbol.toList ++ after ++ r)

inductive Select.Spelled : Select → List Char → Prop
  | mk {fields : FieldList} {word₁ gap₁ s gap₂ word₂ gap₃ : List Char} (source : String) :
      lexicon.keyword "SELECT" word₁ → Gap gap₁ → fields.Spelled s → Gap gap₂ →
      lexicon.keyword "FROM" word₂ → Gap gap₃ →
      Select.Spelled ⟨fields, source⟩ (word₁ ++ gap₁ ++ s ++ gap₂ ++ word₂ ++ gap₃ ++ source.toList)

inductive Join.Spelled : Join → List Char → Prop
  | mk {word₁ gap₁ gap₂ word₂ gap₃ before after : List Char} (table : String)
      (left right : FieldRef) :
      lexicon.keyword "JOIN" word₁ → Gap gap₁ → Gap gap₂ → lexicon.keyword "ON" word₂ →
      Gap gap₃ → Blanks before → Blanks after →
      Join.Spelled ⟨table, left, right⟩
        (word₁ ++ gap₁ ++ table.toList ++ gap₂ ++ word₂ ++ gap₃ ++
          left.text ++ before ++ '=' :: (after ++ right.text))

inductive JoinsSpelled : List Join → List Char → Prop
  | nil : JoinsSpelled [] []
  | cons {join : Join} {joins : List Join} {gap s rest : List Char} :
      Gap gap → join.Spelled lexicon s → JoinsSpelled joins rest →
      JoinsSpelled (join :: joins) (gap ++ s ++ rest)

/-- A clause with the condition after a gap, if there is a condition. -/
inductive RestrictionSpelled : Option Condition → List Char → Prop
  | none : RestrictionSpelled none []
  | some {condition : Condition} {gap₁ word gap₂ s : List Char} :
      Gap gap₁ → lexicon.keyword "WHERE" word → Gap gap₂ → condition.Spelled lexicon s →
      RestrictionSpelled (some condition) (gap₁ ++ word ++ gap₂ ++ s)

inductive Query.Spelled : Query → List Char → Prop
  | mk {select : Select} {joins : List Join} {condition : Option Condition}
      {s₁ s₂ s₃ blanks : List Char} :
      select.Spelled lexicon s₁ → JoinsSpelled lexicon joins s₂ →
      RestrictionSpelled lexicon condition s₃ → Blanks blanks →
      Query.Spelled ⟨select, joins, condition⟩ (s₁ ++ s₂ ++ s₃ ++ blanks)

/-! ### Queries that can be written down

A literal is looked for before a column, so a table whose name begins like a
number or is one of the literal keywords cannot be named in a condition. -/

def FieldRef.names (field : FieldRef) : List String := [field.table, field.column]

def FieldList.names : FieldList → List String
  | .wildcard => []
  | .fields refs => refs.flatMap FieldRef.names

def Operand.names : Operand → List String
  | .field ref => ref.names
  | .literal _ => []

def Condition.names (condition : Condition) : List String :=
  condition.left.names ++ condition.right.names

def Join.names (join : Join) : List String :=
  join.table :: (join.left.names ++ join.right.names)

def Query.names (query : Query) : List String :=
  query.select.fields.names ++ query.select.source :: query.joins.flatMap Join.names ++
    query.condition.toList.flatMap Condition.names

/-- A name that is read as a literal, or begins with one, where both may stand. -/
def Text.ReadsAsLiteral (name : String) : Prop :=
  name.toList.head?.any Char.isDigit = true ∨
    FoldsTo "true" name.toList ∨ FoldsTo "false" name.toList ∨ FoldsTo "null" name.toList

instance (name : String) : Decidable (ReadsAsLiteral name) :=
  inferInstanceAs (Decidable (_ ∨ _))

def Operand.Readable : Operand → Prop
  | .field ref => ¬ReadsAsLiteral ref.table
  | .literal _ => True

instance : (operand : Operand) → Decidable operand.Readable
  | .field ref => inferInstanceAs (Decidable (¬ReadsAsLiteral ref.table))
  | .literal _ => inferInstanceAs (Decidable True)

structure Query.WellFormed (query : Query) : Prop where
  names : ∀ name ∈ query.names, IsName name
  fields : query.select.fields ≠ .fields []
  operands : ∀ condition ∈ query.condition, condition.left.Readable ∧ condition.right.Readable

end TableQuery
