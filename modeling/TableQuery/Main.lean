import TableQuery.Command.Run

/-!
The program: it looks at what a command needs, runs it and prints the outcome.
-/

namespace TableQuery.Command

def readFile? (path : String) : IO (Option String) := do
  try
    return some (← IO.FS.readFile path)
  catch _ =>
    return none

def readStdin? : IO (Option String) := do
  let stdin ← IO.getStdin
  if ← stdin.isTty then
    return none
  else
    return some (← stdin.readToEnd)

/-- What a command gets to see: no more is read than it asks for. -/
def environment (command : Command) : IO Environment := do
  let file ← match command.file? with
    | some path => readFile? path
    | none => pure none
  let stdin ← if command.readsStdin then readStdin? else pure none
  return ⟨stdin, fun _ => file⟩

end TableQuery.Command

def main (arguments : List String) : IO UInt32 := do
  let env ← match TableQuery.Command.ofArguments? arguments with
    | some command => command.environment
    | none => pure ⟨none, fun _ => none⟩
  let outcome := TableQuery.Command.runArguments env arguments
  IO.print outcome.stdout
  IO.eprint outcome.stderr
  return UInt32.ofNat outcome.code
