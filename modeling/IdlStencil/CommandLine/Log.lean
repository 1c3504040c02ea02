import IdlStencil.Diagnostic
import IdlStencil.Idl.Unit
import IdlStencil.Text.Controls

/-!
The verbose log. It consists of records, each of which tells its level, the part of the program
that speaks, and a message. Messages name things by their own text, which may hold newlines and
terminal controls: further lines are indented, and controls are left out.
-/

namespace IdlStencil.CommandLine

open Idl (PackageUnit)

inductive Level where
  | debug
  | info
  deriving DecidableEq, Repr

/-- The name of a level, as wide as the widest one. -/
def Level.label : Level → String
  | .debug => "DEBUG"
  | .info => "INFO "

/-- Indents the lines of a message after the first one. -/
def indentLines (message : String) : String :=
  String.ofList (message.toList.flatMap fun c =>
    if c = '\n' then ['\n', ' ', ' ', ' ', ' '] else [c])

/-- A record of the log. A control that is still open at the end of the message takes the end of
the line with it. -/
def record (level : Level) (part message : String) : String :=
  Text.withoutControls s!"[{level.label} {part}] {indentLines message}\n"

def emittingRecord (sectionName package : String) : String :=
  record .debug "hidlgen_codegen::emit" s!"emitting section '{sectionName}' for {package}"

def emittedRecord (sectionName text : String) : String :=
  record .debug "hidlgen_codegen::emit"
    s!"emitted section '{sectionName}': {text.utf8ByteSize} bytes"

def diagnosticRecord (d : Diagnostic) : String :=
  record .debug "hidlgen_codegen::diagnostic" d.text

def wroteRecord (path : String) : String := record .info "hidlgen::commands::emit" s!"wrote {path}"

def loadedRecord (u : PackageUnit) : String :=
  record .debug "hidlgen::input" s!"loaded {u.package} with {u.declarations.length} declarations"

end IdlStencil.CommandLine
