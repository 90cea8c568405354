import TableQuery.Dialect.Phrase

/-!
The grammar of the dialect, one pattern per rule. Keywords may be written in any
mix of cases and are not reserved. Where two alternatives can begin alike, the
one that takes more comes first, because a choice is not revisited.
-/

namespace TableQuery.Dialect

/-- A token: an expression matched at the place where it is tried. -/
def token (re : Regex) : Pattern Phrase :=
  .regex re.anchored

def keyword (word : String) : Pattern Phrase :=
  token (.caseless word)

def wordChar : CharSet := .ofClass .word

def ws : Pattern Phrase :=
  token (.plus true (.chars (.ofClass .space)))

def optionalWs : Pattern Phrase :=
  .optional ws

/-- A string in the given quotes: any characters but the quote and the backslash,
and backslashes before any character but a line feed. -/
def quotedBy (quote : Char) : Regex :=
  .sequence [
    .chars (.singleton quote),
    .star true (.alt
      (.seq (.chars (.singleton '\\')) (.chars .anyOnLine))
      (.chars ⟨[.range quote quote, .range '\\' '\\'], true, false⟩)),
    .chars (.singleton quote)]

def string : Pattern Phrase :=
  .filterMap (token (.alt (quotedBy '"') (quotedBy '\x27'))) Phrase.toString?

/-- A run of digits, points and minus signs, which need not be well formed: its
value is that of the number it begins with. -/
def number : Pattern Phrase :=
  .filterMap
    (token (.plus true
      (.chars ⟨[.inside .digit, .range '.' '.', .range '-' '-'], false, false⟩)))
    Phrase.toNumber?

def boolean : Pattern Phrase :=
  .filterMap (token (.seq (.alt (.caseless "true") (.caseless "false")) (.boundary true)))
    Phrase.toBoolean?

def null : Pattern Phrase :=
  .filterMap (token (.seq (.caseless "null") (.boundary true))) Phrase.toNull?

def identifier : Pattern Phrase :=
  token (.plus true (.chars wordChar))

def fieldRef : Pattern Phrase :=
  .filterMap (.seq [identifier, .literal ".", identifier]) Phrase.toField?

def fieldList : Pattern Phrase :=
  .any [
    .filterMap (.literal "*") Phrase.toWildcard?,
    .filterMap (.rep fieldRef (some (.seq [optionalWs, .literal ",", optionalWs])))
      Phrase.toFieldList?]

def fieldEquality : Pattern Phrase :=
  .filterMap (.seq [fieldRef, optionalWs, .literal "=", optionalWs, fieldRef]) Phrase.toEquality?

def operator : Pattern Phrase :=
  .filterMap
    (.any [.literal "<>", .literal "<=", .literal ">=", .literal "<", .literal ">", .literal "="])
    Phrase.toOperator?

def value : Pattern Phrase :=
  .any [string, number, boolean, null, fieldRef]

def comparison : Pattern Phrase :=
  .filterMap (.seq [value, optionalWs, operator, optionalWs, value]) Phrase.toCondition?

def selectClause : Pattern Phrase :=
  .filterMap
    (.seq [keyword "SELECT", ws, fieldList, ws, keyword "FROM", ws, identifier, optionalWs])
    Phrase.toSelect?

def joinClause : Pattern Phrase :=
  .filterMap
    (.seq [keyword "JOIN", ws, identifier, ws, keyword "ON", ws, fieldEquality, optionalWs])
    Phrase.toJoin?

def whereClause : Pattern Phrase :=
  .filterMap (.seq [keyword "WHERE", ws, comparison, optionalWs]) Phrase.toWhere?

/-- A query at the beginning of a text; more may follow. -/
def query : Pattern Phrase :=
  .filterMap
    (.seq [
      selectClause,
      optionalWs,
      .optional (.rep joinClause (some optionalWs)),
      .optional whereClause,
      optionalWs])
    Phrase.toQuery?

end TableQuery.Dialect
