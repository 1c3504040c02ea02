import IdlStencil.CommandLine.Arguments
import IdlStencil.CommandLine.Report
import IdlStencil.Interchange.Read
import IdlStencil.Snippet.Load

/-!
Running a command line. A host offers what a command may do to the world outside: read, make
directories, write, print, log. The scripts for shells are its own matter. The same commands run on
the files of the machine and on files that are only held in memory.
-/

namespace IdlStencil.CommandLine

open Idl (PackageUnit)

/-- What commands may do. Reading gives nothing, and writing says false, where it cannot be done. -/
structure Host (m : Type → Type) where
  readFile : String → m (Option String)
  /-- Makes a directory and those around it, as far as they are missing. -/
  makeDirectory : String → m Bool
  writeFile : String → String → m Bool
  print : String → m Unit
  /-- Adds a text to the log. -/
  log : String → m Unit
  /-- Prints the script with which a shell completes command lines. -/
  printCompletions : Shell → m Unit

/-- Why a command line fails. -/
inductive Failure where
  | usage (e : UsageError)
  | table (e : Snippet.LoadError)
  | unitUnreadable (path : String)
  | unitMalformed (path : String)
  | directoryRefused (path : String)
  | fileRefused (path : String)
  /-- The unit in the file has no interface. -/
  | nothingWritten (path : String)
  deriving DecidableEq, Repr

namespace Failure

def message : Failure → String
  | .usage e => e.message
  | .table e => e.message
  | .unitUnreadable path => s!"Failed to read {path}"
  | .unitMalformed path => s!"Failed to parse unit from {path}"
  | .directoryRefused path => s!"Failed to create {path}"
  | .fileRefused path => s!"Failed to write {path}"
  | .nothingWritten path => s!"nothing written: {path} declares no interface"

def exitCode : Failure → UInt8
  | .usage _ => 2
  | _ => 1

end Failure

/-- How a command that does not fail ends. -/
inductive Verdict where
  | fine
  /-- A check found errors. -/
  | faulty
  deriving DecidableEq, Repr

/-- The exit code of a command line. -/
def exitCode : Except Failure Verdict → UInt8
  | .ok .fine => 0
  | .ok .faulty => 1
  | .error e => e.exitCode

section

variable {m : Type → Type} [Monad m]

/-! ## Inputs -/

/-- The snippet table in a file. -/
def openTable (host : Host m) (path : String) : ExceptT Failure m Snippet.Table := do
  match ← host.readFile path with
  | none => throw (.table (.unreadable path))
  | some source =>
    match Snippet.Table.load source with
    | .ok table => return table
    | .error e => throw (.table e)

/-- Adds lines to the log. -/
def logLines (host : Host m) : List String → m Unit
  | [] => pure ()
  | line :: lines => do
    host.log (line ++ "\n")
    logLines host lines

/-- The unit in a file. -/
def openUnit (host : Host m) (verbose : Bool) (path : String) : ExceptT Failure m PackageUnit := do
  match ← host.readFile path with
  | none => throw (.unitUnreadable path)
  | some text =>
    match (Json.Document.ofText text).decode PackageUnit.read with
    | .error _ => throw (.unitMalformed path)
    | .ok u =>
      if verbose then host.log (loadedRecord u)
      return u

/-! ## Steps -/

/-- What steps leave behind: the diagnostics they reported, and the files that could not be
written. -/
structure Tally where
  diagnostics : List Diagnostic := []
  refused : List String := []
  deriving DecidableEq, Repr

def perform (host : Host m) (verbose : Bool) (tally : Tally) : Step → m Tally
  | .log record => do
    if verbose then host.log record
    return tally
  | .report d => pure { tally with diagnostics := tally.diagnostics ++ [d] }
  | .deliver .discard _ => pure tally
  | .deliver .print text => do
    host.print text
    return tally
  | .deliver (.file path) text => do
    if ← host.writeFile path text then
      if verbose then host.log (wroteRecord path)
      return tally
    else return { tally with refused := tally.refused ++ [path] }

/-- Performs steps in order. -/
def performAll (host : Host m) (verbose : Bool) (tally : Tally) : List Step → m Tally
  | [] => pure tally
  | step :: steps => do performAll host verbose (← perform host verbose tally step) steps

/-! ## Commands -/

/-- All passes run, even when a file cannot be written; the first such file is then the failure. -/
def runPasses (host : Host m) (verbose : Bool) (o : EmitOptions) (table : Snippet.Table)
    (u : PackageUnit) : ExceptT Failure m Verdict := do
  let tally ← ExceptT.lift (performAll host verbose {} (o.steps table u))
  match tally.refused with
  | path :: _ => throw (.fileRefused path)
  | [] =>
    ExceptT.lift (logLines host (tally.diagnostics.map Diagnostic.text))
    match o.status table u with
    | .missingInterface => throw (.nothingWritten o.ast)
    | .written () => return .fine

def runEmit (host : Host m) (verbose : Bool) (o : EmitOptions) : ExceptT Failure m Verdict := do
  let table ← openTable host o.snippets
  let u ← openUnit host verbose o.ast
  if o.target = .all then
    if !(← host.makeDirectory o.directory) then throw (.directoryRefused o.directory)
  runPasses host verbose o table u

/-- Shows the results of a check. -/
def showChecks (host : Host m) (o : CheckOptions) (checks : List SectionCheck) :
    ExceptT Failure m Verdict := do
  if o.json then host.print (checksJson checks)
  else ExceptT.lift (logLines host (checks.flatMap SectionCheck.lines))
  if anyError checks then return .faulty
  if !o.json then host.print (cleanLine o.ast checks)
  return .fine

def runCheck (host : Host m) (verbose : Bool) (o : CheckOptions) : ExceptT Failure m Verdict := do
  let table ← openTable host o.snippets
  let u ← openUnit host verbose o.ast
  let _ ← ExceptT.lift (performAll host verbose {} (checkSteps table u))
  showChecks host o (checkSections table u)

def runCommand (host : Host m) (verbose : Bool) : Command → ExceptT Failure m Verdict
  | .emit o => runEmit host verbose o
  | .check o => runCheck host verbose o
  | .sections snippets => do
    let table ← openTable host snippets
    host.print (listing table)
    return .fine
  | .completions shell => do
    host.printCompletions shell
    return .fine

/-- Runs a command line. -/
def run (host : Host m) (args : List String) : ExceptT Failure m Verdict :=
  match Request.parse args with
  | .error e => throw (.usage e)
  | .ok .version => do
    host.print versionLine
    return .fine
  | .ok (.run verbosity command) => runCommand host (0 < verbosity) command

end

end IdlStencil.CommandLine
