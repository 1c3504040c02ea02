import IdlStencil.CommandLine.Invocation

/-!
Reading a command line. Long options are written `--name value` or `--name=value`, short ones
`-n value`, `-nvalue` or `-n=value`, and short options may share one dash. A value never starts with
a dash, unless it is the dash alone. After `--` nothing is an option.
-/

namespace IdlStencil.CommandLine

/-- What an option takes. -/
inductive Arity where
  | flag
  | text
  /-- A text that may not be empty. -/
  | path
  deriving DecidableEq, Repr

structure OptionSpec where
  name : String
  short : Option Char := none
  arity : Arity
  deriving DecidableEq, Repr

/-- What a command line gives: options by their names with their values, and the other arguments. -/
structure Given where
  verbosity : Nat := 0
  options : List (String × String) := []
  operands : List String := []
  deriving DecidableEq, Repr

/-- The one option that may come more than once. -/
def verbose : OptionSpec := { name := "verbose", short := some 'v', arity := .flag }

namespace Given

/-- Takes note of an option. -/
def add (g : Given) (spec : OptionSpec) (value : String) : Except UsageError Given :=
  if spec = verbose then .ok { g with verbosity := g.verbosity + 1 }
  else if (g.options.lookup spec.name).isSome then .error (.repeated spec.name)
  else if spec.arity = .path && value.isEmpty then .error (.emptyPath spec.name)
  else .ok { g with options := g.options ++ [(spec.name, value)] }

def has (g : Given) (name : String) : Bool := (g.options.lookup name).isSome

def value? (g : Given) (name : String) : Option String := g.options.lookup name

/-- The value of an option that has to be there. -/
def value (g : Given) (name : String) : Except UsageError String :=
  match g.value? name with
  | some v => .ok v
  | none => .error (.absent s!"--{name}")

/-- Refuses arguments that are no options. -/
def noOperands (g : Given) : Except UsageError Unit :=
  match g.operands with
  | [] => .ok ()
  | text :: _ => .error (.extraArgument text)

end Given

/-! ## Scanning -/

/-- What was given so far, and the option that waits for its value. -/
structure Scan where
  given : Given := {}
  pending : Option OptionSpec := none
  /-- A double dash has been seen. -/
  operandsOnly : Bool := false

/-- The texts before and after the first equals sign. -/
def splitEquals : List Char → List Char × Option (List Char)
  | [] => ([], none)
  | c :: cs =>
    if c = '=' then ([], some cs)
    else
      let (name, value) := splitEquals cs
      (c :: name, value)

/-- An option by its name. -/
def scanLong (specs : List OptionSpec) (text : List Char) (s : Scan) : Except UsageError Scan :=
  let (name, value) := splitEquals text
  match specs.find? fun spec => spec.name.toList = name with
  | none => .error (.unknownOption ("--" ++ String.ofList name))
  | some spec =>
    match spec.arity, value with
    | .flag, none => do return { s with given := ← s.given.add spec "" }
    | .flag, some _ => .error (.unwantedValue spec.name)
    | _, some value => do return { s with given := ← s.given.add spec (String.ofList value) }
    | _, none => .ok { s with pending := some spec }

/-- Options by their letters. The first that takes a value takes the rest of the letters. -/
def scanShort (specs : List OptionSpec) : List Char → Scan → Except UsageError Scan
  | [], s => .ok s
  | c :: cs, s =>
    match specs.find? fun spec => spec.short = some c with
    | none => .error (.unknownOption s!"-{c}")
    | some spec =>
      match spec.arity, cs with
      | .flag, cs => do scanShort specs cs { s with given := ← s.given.add spec "" }
      | _, [] => .ok { s with pending := some spec }
      | _, '=' :: value | _, value => do
        return { s with given := ← s.given.add spec (String.ofList value) }

/-- Arguments that start with a dash are options, the dash alone apart. -/
def scanDashed (specs : List OptionSpec) (s : Scan) : List Char → Except UsageError Scan
  | ['-', '-'] => .ok { s with operandsOnly := true }
  | '-' :: '-' :: text => scanLong specs text s
  | letters => scanShort specs letters.tail s

def isDashed (arg : String) : Bool := arg.toList.head? = some '-' && arg ≠ "-"

/-- Takes one more argument. -/
def Scan.step (specs : List OptionSpec) (s : Scan) (arg : String) : Except UsageError Scan :=
  let operand : Except UsageError Scan :=
    .ok { s with given := { s.given with operands := s.given.operands ++ [arg] } }
  if s.operandsOnly then operand
  else
    match s.pending, isDashed arg with
    | some spec, true => .error (.noValue spec.name)
    | some spec, false => do
      return { s with given := ← s.given.add spec arg, pending := none }
    | none, true => scanDashed specs s arg.toList
    | none, false => operand

/-- Takes all arguments of a command. -/
def scan (specs : List OptionSpec) (args : List String) : Except UsageError Given := do
  let s ← args.foldlM (Scan.step (verbose :: specs)) {}
  match s.pending with
  | some spec => .error (.noValue spec.name)
  | none => return s.given

/-! ## Commands -/

def astOption : OptionSpec := { name := "ast", arity := .path }

def snippetsOption : OptionSpec := { name := "snippets", arity := .path }

def emitSpecs : List OptionSpec :=
  [astOption, snippetsOption, { name := "section", arity := .text }, { name := "all", arity := .flag },
    { name := "output", short := some 'o', arity := .path },
    { name := "multiline-params", arity := .flag }]

def checkSpecs : List OptionSpec :=
  [astOption, snippetsOption, { name := "json", arity := .flag }]

/-- One section or all, but not both. -/
def targetOf (g : Given) : Except UsageError Target :=
  match g.value? "section", g.has "all" with
  | some _, true => .error .twoTargets
  | some name, false => .ok (.one name)
  | none, true => .ok .all
  | none, false => .error .noTarget

def emitOf (g : Given) : Except UsageError Command := do
  g.noOperands
  return .emit {
    ast := ← g.value "ast", snippets := ← g.value "snippets", target := ← targetOf g,
    output := g.value? "output", multilineParams := g.has "multiline-params" }

def checkOf (g : Given) : Except UsageError Command := do
  g.noOperands
  return .check {
    ast := ← g.value "ast", snippets := ← g.value "snippets", json := g.has "json" }

def sectionsOf (g : Given) : Except UsageError Command := do
  g.noOperands
  return .sections (← g.value "snippets")

def completionsOf (g : Given) : Except UsageError Command :=
  match g.operands with
  | [] => .error (.absent "a shell")
  | [name] =>
    match Shell.all.find? fun shell => shell.name = name with
    | some shell => .ok (.completions shell)
    | none => .error (.unknownShell name)
  | _ :: text :: _ => .error (.extraArgument text)

/-- A command with the arguments behind its name. -/
def parseCommand (verbosity : Nat) (name : String) (args : List String) :
    Except UsageError Request := do
  let finish (specs : List OptionSpec) (read : Given → Except UsageError Command) :
      Except UsageError Request := do
    let g ← scan specs args
    return .run (verbosity + g.verbosity) (← read g)
  match name with
  | "emit" => finish emitSpecs emitOf
  | "check" => finish checkSpecs checkOf
  | "sections" => finish [snippetsOption] sectionsOf
  | "completions" => finish [] completionsOf
  | _ => .error (.unknownCommand name)

/-! ## The whole line -/

/-- What an option before the command says: the request for the version, or so much verbosity. -/
inductive Preamble where
  | version
  | verbosity (n : Nat)

/-- The letters of one dash before the command. The version is shown as soon as it is asked for. -/
def preambleLetters (n : Nat) : List Char → Except UsageError Preamble
  | [] => .ok (.verbosity n)
  | 'v' :: cs => preambleLetters (n + 1) cs
  | 'V' :: _ => .ok .version
  | c :: _ => .error (.unknownOption s!"-{c}")

def preamble (arg : String) : Except UsageError Preamble :=
  match arg with
  | "--verbose" => .ok (.verbosity 1)
  | "--version" => .ok .version
  | _ =>
    match arg.toList with
    | '-' :: '-' :: _ => .error (.unknownOption arg)
    | letters => preambleLetters 0 letters.tail

/-- The request of a command line. -/
def parseFrom (verbosity : Nat) : List String → Except UsageError Request
  | [] => .error .noCommand
  | arg :: args =>
    if isDashed arg then do
      match ← preamble arg with
      | .version => return .version
      | .verbosity n => parseFrom (verbosity + n) args
    else parseCommand verbosity arg args

def Request.parse (args : List String) : Except UsageError Request := parseFrom 0 args

end IdlStencil.CommandLine
