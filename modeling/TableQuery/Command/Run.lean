import TableQuery.Command.Arguments
import TableQuery.Command.Summary

/-!
What the program does, as a function from its surroundings to what it prints and
the code it exits with.
-/

namespace TableQuery

/-- What a run can see: standard input, unless it is a terminal, and files. -/
structure Environment where
  stdin : Option String
  file? : String → Option String

/-- The names on a path that starts in the working directory. A dot or nothing
between two slashes leads nowhere else and is left out; the last name has to be
that of a file and stays as it is. -/
def relativeNames? (path : String) : Option (List String) :=
  match path.splitOn "/" with
  | "" :: _ => none
  | names =>
    some ((names.dropLast.filter fun name => name ≠ "" && name ≠ ".") ++ names.getLast?.toList)

def Environment.ofFiles (stdin : Option String) (files : List (String × String)) :
    Environment where
  stdin := stdin
  file? path :=
    (relativeNames? path).bind fun names =>
      (files.find? fun file => relativeNames? file.1 = some names).map (·.2)

structure Outcome where
  code : Nat
  stdout : String
  stderr : String
deriving DecidableEq, Repr

namespace Outcome

def printed (text : String) : Outcome := ⟨0, text, ""⟩

def failed (error : CommandError) : Outcome := ⟨1, "", error.message ++ "\n"⟩

def ofExcept : Except CommandError String → Outcome
  | .ok text => printed text
  | .error error => failed error

def misused (usage : String) : Outcome := ⟨2, "", usage⟩

end Outcome

namespace Command

def versionText : String := "quill 0.1.0\n"

def usageText : String :=
  "Usage: quill query <QUERY> [-d|--db <DB>] [-p|--pretty]\n" ++
  "       quill parse <QUERY> [-p|--pretty]\n" ++
  "       quill tables [-d|--db <DB>]\n" ++
  "       quill -V|--version\n"

/-- The text of the database: a file that is named must be there, and otherwise
standard input counts. -/
def readDatabase (env : Environment) : Option String → Except CommandError (Option String)
  | some path =>
    match env.file? path with
    | some text => .ok (some text)
    | none => .error .missingFile
  | none => .ok env.stdin

def checkText (text : String) (database : Option String) (syntaxOnly pretty : Bool) :
    Except CommandError String := do
  let result ← check text database syntaxOnly
  .ok (result.render pretty ++ "\n")

def tablesText : Option String → Except CommandError String
  | none => .error .noDatabase
  | some database => do
    let summaries ← listTables database
    .ok (String.join (summaries.map fun summary => summary.line ++ "\n"))

/-- Runs a command. The database is read before the query is looked at. -/
def run (env : Environment) : Command → Outcome
  | query text db pretty =>
    .ofExcept do
      let database ← readDatabase env db
      checkText text database false pretty
  | parse text pretty => .ofExcept (checkText text none true pretty)
  | tables db =>
    .ofExcept do
      let database ← readDatabase env db
      tablesText database
  | version => .printed versionText
  | help => .printed usageText

def file? : Command → Option String
  | query _ db _ => db
  | tables db => db
  | _ => none

def readsStdin : Command → Bool
  | query _ none _ => true
  | tables none => true
  | _ => false

def runArguments (env : Environment) (arguments : List String) : Outcome :=
  match ofArguments? arguments with
  | some command => command.run env
  | none => .misused usageText

end Command

end TableQuery
