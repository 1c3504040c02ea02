import IdlStencil.CommandLine.Invocation
import IdlStencil.CommandLine.Log
import IdlStencil.Emission

/-!
Passes as sequences of steps. A pass renders a unit for one section; what it does to the world
around it is to log, to report each diagnostic, and at last to hand over its text. The steps of a
pass do not depend on those of another, so passes may run in any order or at once.
-/

namespace IdlStencil.CommandLine

open Idl (PackageUnit)

/-! ## Steps -/

/-- Where the text of a pass goes. -/
inductive Delivery where
  | discard
  | print
  | file (path : String)
  deriving DecidableEq, Repr

inductive Step where
  /-- A record of the verbose log. -/
  | log (record : String)
  | report (d : Diagnostic)
  | deliver (delivery : Delivery) (text : String)
  deriving DecidableEq, Repr

/-- A diagnostic is logged and reported. -/
def reportSteps (d : Diagnostic) : List Step := [.log (diagnosticRecord d), .report d]

/-- The end of a pass that has a text. -/
def textSteps (sectionName : String) (delivery : Delivery) : Option String → List Step
  | some text => [.log (emittedRecord sectionName text), .deliver delivery text]
  | none => []

/-- The steps of a pass. -/
def passSteps (e : Emission) (u : PackageUnit) (delivery : Delivery) : List Step :=
  let result := e.render u
  [.log (emittingRecord e.sectionName u.package)] ++ result.notes.flatMap reportSteps ++
    textSteps e.sectionName delivery result.value

/-! ## Emitting -/

/-- The pass of a section with the options of `emit`. The option for newlines only ever keeps
them. -/
def EmitOptions.emission (o : EmitOptions) (table : Snippet.Table) (sectionName : String) :
    Emission where
  table := table
  sectionName := sectionName
  multiline := if o.multilineParams then some true else none

/-- The directory for all sections. -/
def EmitOptions.directory (o : EmitOptions) : String := o.output.getD "."

/-- A name inside a directory. The empty path is the directory in which commands run. -/
def joinPath (directory name : String) : String :=
  if directory.toList.getLast?.all (· = '/') then directory ++ name else directory ++ "/" ++ name

/-- The name of the file of a section. -/
def outputName (sectionName : String) : String := sectionName ++ ".out"

/-- The file of a section inside a directory. -/
def sectionFile (directory sectionName : String) : String :=
  joinPath directory (outputName sectionName)

/-- Each pass of `emit`: the section, and where its text goes. -/
def EmitOptions.passes (o : EmitOptions) (table : Snippet.Table) : List (String × Delivery) :=
  match o.target with
  | .one sectionName =>
    [(sectionName, match o.output with
      | some path => .file path
      | none => .print)]
  | .all => table.names.map fun name => (name, .file (sectionFile o.directory name))

/-- The steps of each pass. -/
def EmitOptions.stepsByPass (o : EmitOptions) (table : Snippet.Table) (u : PackageUnit) :
    List (List Step) :=
  (o.passes table).map fun (sectionName, delivery) =>
    passSteps (o.emission table sectionName) u delivery

/-- The steps of all passes, one pass after another. -/
def EmitOptions.steps (o : EmitOptions) (table : Snippet.Table) (u : PackageUnit) : List Step :=
  (o.stepsByPass table u).flatten

/-- Whether a pass into memory ends without a text because there is no interface. -/
def lacksInterface (e : Emission) (u : PackageUnit) : Bool :=
  match (e.emit u Sink.text.write).value with
  | .ok .missingInterface => true
  | _ => false

/-- How the passes end together: without an interface as soon as one of them does. -/
def EmitOptions.status (o : EmitOptions) (table : Snippet.Table) (u : PackageUnit) :
    EmitStatus Unit :=
  if (o.passes table).any fun (sectionName, _) => lacksInterface (o.emission table sectionName) u
  then .missingInterface
  else .written ()

/-! ## Checking -/

/-- The diagnostics of one section. -/
structure SectionCheck where
  sectionName : String
  diagnostics : List Diagnostic
  deriving DecidableEq, Repr

/-- Checks every section of a table. -/
def checkSections (table : Snippet.Table) (u : PackageUnit) : List SectionCheck :=
  table.names.map fun name => ⟨name, ((Emission.mk table name none).render u).notes⟩

/-- The steps of all passes of a check. -/
def checkSteps (table : Snippet.Table) (u : PackageUnit) : List Step :=
  table.names.flatMap fun name => passSteps (Emission.mk table name none) u .discard

/-- Whether a check found an error. -/
def anyError (checks : List SectionCheck) : Bool :=
  checks.any fun c => c.diagnostics.any Diagnostic.isError

end IdlStencil.CommandLine
