/-!
Reading the arguments of the command line. Options and operands may be mixed,
short options may be bundled, an option's value may be attached to it, and after
a double hyphen everything is an operand. An option is given at most once, and a
value that could be taken for an option has to be attached.
-/

namespace TableQuery

inductive Command
  | query (text : String) (db : Option String) (pretty : Bool)
  | parse (text : String) (pretty : Bool)
  | tables (db : Option String)
  | version
  | help
deriving DecidableEq, Repr

namespace Command

structure Options where
  db : Option String := none
  pretty : Bool := false
  operands : List String := []
  help : Bool := false
deriving DecidableEq, Repr

structure Accepted where
  db : Bool
  pretty : Bool
  operands : Nat

namespace Options

/-- Sets the database file, whose name must not be empty. -/
def setDb? (accepted : Accepted) (value : String) (options : Options) : Option Options :=
  if accepted.db && !value.isEmpty && options.db.isNone then
    some { options with db := some value }
  else
    none

def setPretty? (accepted : Accepted) (options : Options) : Option Options :=
  if accepted.pretty && !options.pretty then some { options with pretty := true } else none

def addOperand? (accepted : Accepted) (operand : String) (options : Options) : Option Options :=
  if options.operands.length < accepted.operands then
    some { options with operands := options.operands ++ [operand] }
  else
    none

/-- What reading a bundle of short options comes to: it ends well, or its last
option wants the next argument as its value. -/
inductive Bundle
  | done (options : Options)
  | wantsDb (options : Options)

def readBundle? (accepted : Accepted) : List Char → Options → Option Bundle
  | [], options => some (.done options)
  | 'h' :: _, options => some (.done { options with help := true })
  | 'p' :: rest, options => (options.setPretty? accepted).bind (readBundle? accepted rest)
  | ['d'], options => some (.wantsDb options)
  | 'd' :: '=' :: value, options => (options.setDb? accepted (String.ofList value)).map .done
  | 'd' :: value, options => (options.setDb? accepted (String.ofList value)).map .done
  | _, _ => none

/-- A single hyphen is an ordinary value; a longer text with one in front is an
option. -/
def isOption (argument : String) : Bool :=
  match argument.toList with
  | '-' :: _ :: _ => true
  | _ => false

/-- Reads the arguments up to the end, or up to a request for help. -/
def read? (accepted : Accepted) : List String → Options → Option Options
  | [], options => some options
  | argument :: rest, options =>
    if options.help then some options else
    if argument = "--" then
      rest.foldlM (fun options operand => options.addOperand? accepted operand) options
    else if argument = "--db" then readDb rest options
    else if argument = "--pretty" then (options.setPretty? accepted).bind (read? accepted rest)
    else if argument = "--help" then some { options with help := true }
    else
      match argument.toList with
      | '-' :: '-' :: 'd' :: 'b' :: '=' :: value =>
        (options.setDb? accepted (String.ofList value)).bind (read? accepted rest)
      | '-' :: '-' :: _ => none
      | '-' :: c :: bundle =>
        match readBundle? accepted (c :: bundle) options with
        | some (.done options) => read? accepted rest options
        | some (.wantsDb options) => readDb rest options
        | none => none
      | _ => (options.addOperand? accepted argument).bind (read? accepted rest)
where
  readDb : List String → Options → Option Options
    | value :: rest, options =>
      if isOption value then none
      else (options.setDb? accepted value).bind (read? accepted rest)
    | [], _ => none

end Options

/-- The command that the operands and options make, if they are complete. -/
def ofQueryOptions? (options : Options) : Option Command :=
  match options.operands with
  | [text] => some (.query text options.db options.pretty)
  | _ => none

def ofParseOptions? (options : Options) : Option Command :=
  match options.operands with
  | [text] => some (.parse text options.pretty)
  | _ => none

def ofTablesOptions? (options : Options) : Option Command :=
  some (.tables options.db)

def readWith? (accepted : Accepted) (build : Options → Option Command) (arguments : List String) :
    Option Command :=
  (Options.read? accepted arguments {}).bind fun options =>
    if options.help then some .help else build options

def names : List String :=
  ["query", "parse", "tables", "help"]

/-- Help is on the program or on one of its commands, and takes no options. -/
def readHelp? : List String → Option Command
  | [] => some .help
  | [name] => if names.contains name then some .help else none
  | _ => none

def ofArguments? : List String → Option Command
  | "query" :: arguments => readWith? ⟨true, true, 1⟩ ofQueryOptions? arguments
  | "parse" :: arguments => readWith? ⟨false, true, 1⟩ ofParseOptions? arguments
  | "tables" :: arguments => readWith? ⟨true, false, 0⟩ ofTablesOptions? arguments
  | "help" :: arguments => readHelp? arguments
  | argument :: _ =>
    if argument = "--version" then some .version
    else if argument = "--help" then some .help
    else
      match argument.toList with
      | '-' :: 'V' :: _ => some .version
      | '-' :: 'h' :: _ => some .help
      | _ => none
  | [] => none

end Command

end TableQuery
