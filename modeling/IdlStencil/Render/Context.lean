import IdlStencil.Diagnostic
import IdlStencil.Snippet.Table
import IdlStencil.Template.Fill

/-!
The context of a rendering: the table, the section whose snippets are used, and the names of the
package and interface.
-/

namespace IdlStencil.Render

open Template (Substitutions)

structure Context where
  table : Snippet.Table
  sectionName : String
  package : String := ""
  interface : String := ""
  /-- Snippets for parameters keep their newlines. -/
  multiline : Bool := false

namespace Context

/-- A context for a section. Newlines of parameters are kept in the section `json` alone, unless the
caller says otherwise. -/
def of (table : Snippet.Table) (sectionName : String) (package interface : String)
    (multiline : Option Bool) : Context :=
  { table, sectionName, package, interface, multiline := multiline.getD (sectionName = "json") }

end Context

/-- The warning about a section that the table does not have. -/
def missingSection (sectionName : String) : Diagnostic where
  severity := .warning
  kind := .missingSection
  message := s!"section '{sectionName}' not found in snippets"

/-- A snippet of the section, filled. A section that does not exist is noted; a snippet that does
not exist is not, since no section needs all of them. Both give the empty text. -/
def Context.snip (cx : Context) (name : String) (subs : Substitutions) : Noted String :=
  match cx.table.section? cx.sectionName with
  | none => ⟨"", [missingSection cx.sectionName]⟩
  | some snippets =>
    match snippets.get? name with
    | none => pure ""
    | some template => pure (Template.fill template subs)

end IdlStencil.Render
