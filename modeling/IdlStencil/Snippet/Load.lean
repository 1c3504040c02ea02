import IdlStencil.Decimal.Layout
import IdlStencil.Snippet.Name
import IdlStencil.Snippet.Table
import IdlStencil.Text.Quoted
import IdlStencil.Toml.Document

/-!
Loading a snippet table from TOML. Every table at the top is a section, and every entry in it has to
be a string. Then all names are checked, section by section.
-/

namespace IdlStencil.Snippet

open Decimal (plainLayout)
open Toml (Span Item Entry Plain)

inductive LoadError where
  | unreadable (path : String)
  | malformed
  /-- A value of another type than it should have. -/
  | wrongShape (found expected : String) (span : Span)
  | invalidName (name : String) (context : NameContext) (fault : NameFault) (span : Option Span)
  deriving DecidableEq, Repr

namespace LoadError

/-- The headline of an error. -/
def message : LoadError → String
  | .unreadable path => s!"failed to read '{path}'"
  | .malformed | .wrongShape _ _ _ => "failed to parse snippet table"
  | .invalidName name context _ _ => s!"invalid {context.label} name '{name}'"

/-- What to do about an error. -/
def help : LoadError → String
  | .unreadable _ => "pass the snippet table with --snippets <path>"
  | .malformed | .wrongShape _ _ _ =>
    "each top-level table is a section; every entry in it must be a string"
  | .invalidName _ _ fault _ =>
    fault.reason ++
      ". Snippet names are looked up by composing identifiers, e.g. 'param_decl_vec_all'."

/-- The code of an error, where it has one. -/
def code? : LoadError → Option String
  | .unreadable _ => none
  | .malformed | .wrongShape _ _ _ => some "hidlgen::parse_error"
  | .invalidName _ _ _ _ => some "hidlgen::invalid_name"

/-- More about an error, where there is more. -/
def detail? : LoadError → Option String
  | .wrongShape found expected _ => some s!"invalid type: {found}, expected {expected}"
  | _ => none

end LoadError

/-! ## Shape -/

/-- An integer by the narrowest of the usual types that hold it. -/
def describeInteger? (n : Int) : Option String :=
  let bound (bits : Nat) : Int := Nat.pow 2 bits
  if -bound 63 ≤ n && n < bound 64 then some s!"integer `{n}`"
  else if -bound 127 ≤ n && n < bound 127 then some s!"integer `{n}` as i128"
  else if 0 ≤ n && n < bound 128 then some s!"integer `{n}` as u128"
  else none

/-- What a value is; none for a number without value, or one that no usual type holds. -/
def describe? : Item → Option String
  | .text s => some s!"string {Text.quoted s}"
  | .plain (.boolean b) => some s!"boolean `{b}`"
  | .plain (.integer n) => describeInteger? n
  | .plain (.float x) => some s!"floating point `{plainLayout.text x}`"
  | .plain .valueless => none
  | .plain .moment => some "map"
  | .array _ | .tables _ _ => some "sequence"
  | .table _ => some "map"

/-- The refusal of an entry that should be something else. -/
def wrongShape {α : Type} (e : Entry) (expected : String) : Except LoadError α :=
  match describe? e.item with
  | some found => .error (.wrongShape found expected e.span)
  | none => .error .malformed

/-- The snippets of a section in order. -/
def snippetsOf : List Entry → Except LoadError (List (String × String))
  | [] => .ok []
  | e :: es =>
    match e.item with
    | .text s => do return (e.key, s) :: (← snippetsOf es)
    | _ => wrongShape e "a string"

/-- The one entry of a date or time where a table should stand. -/
def momentKey : String := "$__toml_private_datetime"

/-- The sections in order. -/
def sectionsOf : List Entry → Except LoadError (List (String × List (String × String)))
  | [] => .ok []
  | e :: es =>
    match e.item with
    | .table t => do
      let snippets ← snippetsOf t.entries
      return (e.key, snippets) :: (← sectionsOf es)
    | .plain .moment => do return (e.key, [(momentKey, "")]) :: (← sectionsOf es)
    | _ => wrongShape e "a map"

/-! ## Names -/

/-- Refuses a name that is not allowed. -/
def checkName (source : String) (context : NameContext) (name : String) : Except LoadError Unit :=
  match nameFault? context name with
  | none => .ok ()
  | some fault => .error (.invalidName name context fault (findName source name))

def checkSnippets (source : String) : List (String × String) → Except LoadError Unit
  | [] => .ok ()
  | (name, _) :: rest => do
    checkName source .snippetName name
    checkSnippets source rest

/-- Checks the name of each section and then the names in it. -/
def checkSections (source : String) : List (String × List (String × String)) →
    Except LoadError Unit
  | [] => .ok ()
  | (name, snippets) :: rest => do
    checkName source .sectionName name
    checkSnippets source snippets
    checkSections source rest

/-! ## Loading -/

/-- The table of the sections in order, empty ones included. -/
def tableOf (sections : List (String × List (String × String))) : Table :=
  ⟨.ofList (sections.map fun (name, snippets) => (name, .ofList snippets))⟩

/-- The table that a TOML text describes. -/
def Table.load (source : String) : Except LoadError Table :=
  match Toml.parse? source with
  | none => .error .malformed
  | some t => do
    let sections ← sectionsOf t.entries
    checkSections source sections
    return tableOf sections

end IdlStencil.Snippet
