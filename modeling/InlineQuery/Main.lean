/-
The program: reads what its command needs, prints the answer, and ends with
0 if there is one, 1 if the command could not be carried out, and 2 if it
could not be understood.
-/
import InlineQuery.Command.Line

namespace InlineQuery

/-- A file as a whole, or why it cannot be read. -/
def readFile (path : Text) : IO (Except FileError Text) := do
  try
    let content ← IO.FS.readFile (String.ofList path)
    return .ok content.toList
  catch
    | .noFileOrDirectory .. => return .error .missing
    | e => return .error (.other (toString e).toList)

end InlineQuery

open InlineQuery

/-- The program, from its arguments to its exit code. -/
def main (arguments : List String) : IO UInt32 := do
  match Command.ofArguments? (arguments.map String.toList) with
  | none =>
    IO.eprintln "usage: wikiq [-v] check [QUERY] [OPTIONS] | docs | doc CATEGORY | --version"
    return 2
  | some command =>
    let input ← if command.wantsInput then (← IO.getStdin).readToEnd else pure ""
    let file ← match command.wantsFile? with
      | some path => readFile path
      | none => pure (.error .missing)
    match command.run input.toList (fun _ => file) with
    | .ok answer =>
      IO.print (String.ofList answer)
      return 0
    | .error e =>
      IO.eprintln (String.ofList e.message)
      return 1
