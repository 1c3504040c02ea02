import IdlStencil.CommandLine.Path
import IdlStencil.CommandLine.Run

/-!
The command line on the files of the machine.
-/

namespace IdlStencil.CommandLine

/-- The value of an action that may fail. -/
def attempt {α : Type} (action : IO α) : IO (Option α) := do
  try return some (← action)
  catch _ => return none

/-- Makes the directories for a path, which then has to name one that is there. -/
def makeDirectories (path : String) : IO Unit := do
  let names := namesToMake path
  if !names.isEmpty then IO.FS.createDirAll (pathAlong path names)
  try IO.FS.createDir path
  catch
    | .alreadyExists .. => pure ()
    | e => throw e

/-- The machine as a host. The log goes to standard error, and there are no scripts for shells. -/
def machine : Host IO where
  readFile path := attempt (IO.FS.readFile path)
  makeDirectory path := do return (← attempt (makeDirectories path)).isSome
  writeFile path text := do return (← attempt (IO.FS.writeFile path text)).isSome
  print text := do
    (← IO.getStdout).putStr text
  log text := IO.eprint text
  printCompletions _ := pure ()

end IdlStencil.CommandLine

def main (args : List String) : IO UInt32 := do
  let result ← (IdlStencil.CommandLine.run IdlStencil.CommandLine.machine args).run
  match result with
  | .error e => IO.eprintln s!"error: {e.message}"
  | .ok _ => pure ()
  return (IdlStencil.CommandLine.exitCode result).toUInt32
