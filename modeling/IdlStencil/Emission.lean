import IdlStencil.Render.Declaration
import IdlStencil.Idl.Unit

/-!
Emitting a unit for one section: the facts about the whole unit are gathered and the snippet `file`
is filled with them.
-/

namespace IdlStencil

open Render
open Template (Substitutions)
open Idl (PackageUnit Declaration Function)

/-- One pass: a section of a table, and what the caller says about newlines in parameters. -/
structure Emission where
  table : Snippet.Table
  sectionName : String
  multiline : Option Bool := none

/-- The error about a unit without an interface. -/
def missingInterface : Diagnostic where
  severity := .error
  kind := .missingInterface
  message := "cannot write output; no interface declared"

namespace Emission

/-- The component type of an interface, through its snippet. -/
def componentType (cx : Context) (annotations : List Idl.Annot) : Noted String :=
  match componentType? annotations with
  | .ok (some tag) => cx.snip "component_type_enum" [("vts_ct_enum", tag)]
  | .ok none => pure ""
  | .error e => do
    Noted.note e.diagnostic
    return ""

/-- One line for the last name of each import path. -/
def importsSection (cx : Context) (imports : List (List String)) : Noted String :=
  Noted.concat (fun name => cx.snip "import_line" [("import_name", name)])
    (imports.filterMap List.getLast?)

/-- What the declarations add to a file. -/
structure DeclarationTexts where
  declarations : String := ""
  code : String := ""
  callbacks : String := ""

/-- Goes through the declarations with their facts in order. -/
def declarationTexts (cx : Context) (texts : DeclarationTexts) :
    List (Declaration × Substitutions) → Noted DeclarationTexts
  | [] => pure texts
  | (d, facts) :: rest => do
    let declaration ← cx.snip ("declare_" ++ d.kind) facts
    let code ← cx.snip ("code_for_" ++ d.kind) facts
    let callback ← if d.function?.isSome then cx.snip "callback_decl_line" facts else pure ""
    declarationTexts cx ⟨texts.declarations ++ declaration, texts.code ++ code,
      texts.callbacks ++ callback⟩ rest

/-- The enumeration of the calls: the first function through its snippet, on a line of its own, and
the token of every later one. -/
def callList (cx : Context) : List Function → Noted String
  | [] => pure ""
  | f :: fs => do
    let first ← cx.snip "first_call_enum" [("call_enum_name", dispatchToken f.name)]
    return first ++ "\n" ++ String.join (fs.map fun g => "  " ++ dispatchToken g.name ++ ", ")

/-- The lines that open the namespaces, and those that close them in the reverse order. -/
def namespaceLines (cx : Context) : List String → Noted (String × String)
  | [] => pure ("", "")
  | name :: names => do
    let opening ← cx.snip "namespace_open_line" [("namespace_name", name)]
    let closing ← cx.snip "namespace_close_line" [("namespace_name", name)]
    let (openings, closings) ← namespaceLines cx names
    return (opening ++ openings, closings ++ closing)

/-- The facts about a unit, in a context for its package and interface. -/
def unitFacts (cx : Context) (u : PackageUnit) (annotations : List Idl.Annot) :
    Noted Substitutions := do
  let component ← componentType cx annotations
  let imports ← importsSection cx u.imports
  let facts ← Noted.traverse (declarationFacts cx) u.declarations
  let texts ← declarationTexts cx {} (u.declarations.zip facts)
  let (opening, closing) ← namespaceLines cx u.namespacePath
  return [
    ("header_guard", u.package),
    ("version_string", u.version.text),
    ("version_major_string", u.version.majorText),
    ("version_minor_string", u.version.minorText),
    ("imports_section", imports),
    ("component_type_enum", component),
    ("package_name", u.package),
    ("declarations", texts.declarations),
    ("code_snips", texts.code),
    ("call_enum_list", ← callList cx u.functions),
    ("callback_decls", texts.callbacks),
    ("namespace_open_section", opening),
    ("namespace_close_section", closing),
    ("namespace_slashes", "/".intercalate u.namespacePath),
    ("namespace_dots", ".".intercalate u.namespacePath),
    ("namespace_underscores", "_".intercalate u.namespacePath),
    ("vars_writer", ← bySuffix cx "param_write_" u.vars),
    ("vars_reader", ← bySuffix cx "param_read_" u.vars),
    ("vars_decl", ← semiBlock cx u.vars)]

/-- The text of a unit for the section. A unit without an interface has none. A section that does
not exist is noted once and gives the empty text. -/
def render (e : Emission) (u : PackageUnit) : Noted (Option String) :=
  match u.interface with
  | none => ⟨none, [missingInterface]⟩
  | some interface =>
    if (e.table.section? e.sectionName).isNone then
      ⟨some "", [missingSection e.sectionName]⟩
    else do
      let cx := Context.of e.table e.sectionName u.package interface.name e.multiline
      return some (← cx.snip "file" (← unitFacts cx u interface.annotations))

end Emission

/-- Where a text goes. -/
inductive Sink where
  /-- A text of any length. -/
  | text
  /-- A buffer of so many bytes. -/
  | buffer (capacity : Nat)
  deriving DecidableEq, Repr

/-- The bytes of a text that a sink takes, or the number it took before it was full. -/
def Sink.write (text : String) : Sink → Except Nat Nat
  | .text => .ok text.utf8ByteSize
  | .buffer capacity =>
    if text.utf8ByteSize ≤ capacity then .ok text.utf8ByteSize else .error capacity

/-- What a sink says when it is full. -/
def sinkFull : String := "failed to write whole buffer"

/-- How a pass ends whose sink did not fail. -/
inductive EmitStatus (α : Type) where
  /-- The text was handed over, and this is what the sink made of it. -/
  | written (taken : α)
  /-- The unit has no interface, so that nothing was handed over. -/
  | missingInterface
  deriving DecidableEq, Repr

/-- One pass: the unit is rendered and its text, where it has one, handed to a sink that may
refuse it. What was noted stays noted in either case. -/
def Emission.emit {ε α : Type} (e : Emission) (u : PackageUnit) (write : String → Except ε α) :
    Noted (Except ε (EmitStatus α)) := do
  match ← e.render u with
  | none => return .ok .missingInterface
  | some text => return (write text).map .written

end IdlStencil
