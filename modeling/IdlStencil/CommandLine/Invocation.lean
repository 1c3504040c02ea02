/-!
What a command line asks for, and what can be wrong with one.
-/

namespace IdlStencil.CommandLine

/-- The name under which the program runs. -/
def programName : String := "hidlgen"

/-- The name and version of the program. -/
def versionLine : String := s!"{programName} 0.3.0\n"

/-- The sections that `emit` renders. -/
inductive Target where
  | one (sectionName : String)
  | all
  deriving DecidableEq, Repr

/-- Renders a unit for one section or for all. -/
structure EmitOptions where
  ast : String
  snippets : String
  target : Target
  /-- A file for one section, a directory for all. -/
  output : Option String := none
  multilineParams : Bool := false
  deriving DecidableEq, Repr

/-- Renders a unit for all sections and keeps only the diagnostics. -/
structure CheckOptions where
  ast : String
  snippets : String
  json : Bool := false
  deriving DecidableEq, Repr

/-- The shells that have completions. -/
inductive Shell where
  | bash
  | elvish
  | fish
  | powershell
  | zsh
  deriving DecidableEq, Repr

namespace Shell

def all : List Shell := [.bash, .elvish, .fish, .powershell, .zsh]

def name : Shell → String
  | .bash => "bash"
  | .elvish => "elvish"
  | .fish => "fish"
  | .powershell => "powershell"
  | .zsh => "zsh"

end Shell

inductive Command where
  | emit (options : EmitOptions)
  | check (options : CheckOptions)
  /-- Lists the sections of a table. -/
  | sections (snippets : String)
  | completions (shell : Shell)
  deriving DecidableEq, Repr

/-- The names of the commands. -/
def commandNames : List String := ["emit", "check", "sections", "completions"]

inductive Request where
  | version
  | run (verbosity : Nat) (command : Command)
  deriving DecidableEq, Repr

inductive UsageError where
  | noCommand
  | unknownCommand (name : String)
  | unknownOption (text : String)
  | noValue (option : String)
  | emptyPath (option : String)
  | unwantedValue (option : String)
  | repeated (option : String)
  | absent (what : String)
  | extraArgument (text : String)
  | noTarget
  | twoTargets
  | unknownShell (name : String)
  deriving DecidableEq, Repr

def UsageError.message : UsageError → String
  | .noCommand => "a command is needed: " ++ ", ".intercalate commandNames
  | .unknownCommand name => s!"unknown command '{name}'"
  | .unknownOption text => s!"unknown option '{text}'"
  | .noValue option => s!"option --{option} needs a value"
  | .emptyPath option => s!"option --{option} needs a path"
  | .unwantedValue option => s!"option --{option} takes no value"
  | .repeated option => s!"option --{option} is given twice"
  | .absent what => s!"{what} is needed"
  | .extraArgument text => s!"unexpected argument '{text}'"
  | .noTarget => "one of --section and --all is needed"
  | .twoTargets => "--section and --all exclude each other"
  | .unknownShell name => s!"unknown shell '{name}'"

end IdlStencil.CommandLine
