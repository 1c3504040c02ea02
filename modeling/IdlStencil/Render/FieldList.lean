import IdlStencil.Render.Annotations
import IdlStencil.Render.Spelling

/-!
Renderings of a list of fields. Each of them goes through the fields in order.
-/

namespace IdlStencil.Render

open Template (Substitutions)
open Idl (Ty Field)

/-- The facts about a field: those about itself, then those about its type. -/
def fieldFacts (cx : Context) (f : Field) : Noted Substitutions :=
  match f.type with
  | some t => do return ownFacts cx f ++ (← typeFacts cx t)
  | none => pure (ownFacts cx f)

/-- The fields that have a type. -/
def typed (fields : List Field) : List (Field × Ty) :=
  fields.filterMap fun f => f.type.map fun t => (f, t)

/-- The fields as parameters, with commas between them. -/
def commaList (cx : Context) (omitNames : Bool) (fields : List Field) : Noted String := do
  return ", ".intercalate (← parameters cx omitNames fields)

/-- The names of the fields with commas between them, each through a snippet where one is given. -/
def nameList (cx : Context) (snippet : Option String) (fields : List Field) : Noted String := do
  let names ← Noted.traverse (fun f : Field =>
    match snippet with
    | some snippet => do return flatten (← cx.snip snippet [("param_name", f.name)])
    | none => pure f.name) fields
  return ", ".intercalate names

/-- The fields as members, one a line. -/
def semiBlock (cx : Context) (fields : List Field) : Noted String := do
  return String.join (← members cx fields)

/-- The snippet named by `stem` and the kind of the type, for each field that has one. -/
def byType (cx : Context) (stem : String) (fields : List Field) : Noted String :=
  Noted.concat (fun (f, t) => do cx.snip (stem ++ t.kind) (← fieldFacts cx f)) (typed fields)

/-- The snippets named by `stem` and either suffix of the type, for each field that has one. -/
def bySuffix (cx : Context) (stem : String) (fields : List Field) : Noted String :=
  Noted.concat (fun (f, t) => do
    let facts ← fieldFacts cx f
    Noted.concat (cx.snip · facts) (suffixSnippets stem t)) (typed fields)

/-- The sample values of a field. A value without a literal is noted and adds nothing. -/
def samples (cx : Context) (f : Field) (t : Ty) : Noted String :=
  match f.annot with
  | none => pure ""
  | some a =>
    Noted.concat (fun
      | .ok literal =>
        cx.snip "vts_values" [("type_name", t.suiteTag), ("the_value", literal.text)]
      | .error e => do
        Noted.note e.diagnostic
        return "") (sampleValues a)

/-- The description of an argument or result for the test suite. -/
def suiteArg (cx : Context) (label : String) (f : Field) (t : Ty) : Noted String := do
  let typeName ← spell cx t
  let values ← samples cx f t
  cx.snip "vts_args" [("arg_or_ret_type", label), ("type_name", typeName),
    ("vts_type_type", if t.isPrimitive then "primitive_type" else "aggregate_type"),
    ("vts_values", values)]

/-- The descriptions of the fields that have a type. -/
def suiteArgs (cx : Context) (label : String) (fields : List Field) : Noted String :=
  Noted.concat (fun (f, t) => suiteArg cx label f t) (typed fields)

end IdlStencil.Render
