import IdlStencil.Render.Context
import IdlStencil.Render.Naming
import IdlStencil.Idl.Ty

/-!
Spelling types and fields, and the facts about them that snippets are filled with.

A field with a type is written through the snippets for its type where the section has them, and
plainly, type then name, where they yield nothing. Since such a snippet may ask for the spelling of
the type, and the spelling of an inline type asks for its fields, all of this is one recursion on
the type.

Lookups happen in a fixed order. The order shows when the section does not exist, because each
lookup then leaves a note.
-/

namespace IdlStencil.Render

open Template (Substitutions)
open Idl (Ty Field)

/-- The names of the snippets that a stem makes with either suffix of a type. -/
def suffixSnippets (stem : String) (t : Ty) : List String :=
  [stem ++ t.suffix, stem ++ t.kindSuffix]

/-- The names of the snippets for a parameter of a type, each once. A type without parts has its
kind for its suffix. -/
def parameterSnippets (t : Ty) : List String :=
  (suffixSnippets "param_decl_" t ++ ["param_decl_" ++ t.kind]).eraseDups

/-- The names of the snippets for a member of a type. -/
def memberSnippets (t : Ty) : List String := suffixSnippets "field_decl_" t

/-- The facts about a field itself: its name, the package, and its value. -/
def ownFacts (cx : Context) (f : Field) : Substitutions :=
  [("param_name", f.name), ("package_name", cx.package),
    ("init_value", match f.value with
      | some v => v.text
      | none => "")]

/-- A special form, on one line unless newlines are kept. -/
def special (keep : Bool) (text : String) : String := if keep then text else flatten text

mutual

/-- The spelling of a type. -/
def spell (cx : Context) : Ty → Noted String
  | .scalar s => pure s.name
  | .vec base => do return "hidl_vec<" ++ (← spell cx base) ++ ">"
  | .array base dimension => do return (← spell cx base) ++ "[" ++ dimension ++ "]"
  | .enum _ fields => do
    return "enum \x7b" ++ ", ".intercalate (← parameters cx false fields) ++ "\x7d"
  | .union fields => do return "union \x7b\n" ++ String.join (← members cx fields) ++ "\x7d"
  | .struct fields => do return "struct \x7b\n" ++ String.join (← members cx fields) ++ "\x7d"
  | .named name _ => pure name
  | .ref base => do return "hidl_ref<" ++ (← spell cx base) ++ ">"
  | .sealed => pure "opaque"
  | .string => pure "hidl_string"
  | .handle => pure "native_handle"

/-- The facts about a type. Those of an alias are its name and the facts about what it names. -/
def typeFacts (cx : Context) : Ty → Noted Substitutions
  | .scalar s => pure [("field_type_vts", s.suiteTag), ("base_type_name", s.name)]
  | .vec base => do return [("vec_name", "myVecName"), ("base_type_name", ← spell cx base)]
  | .array base dimension => do
    return [("array_name", "myArrayName"), ("array_size", dimension),
      ("base_type_name", ← spell cx base)]
  | .enum storage _ => do return [("enum_base_type", ← spell cx storage)]
  | .named name base => do return ("named_type_name", name) :: (← typeFacts cx base)
  | .ref base => do return [("base_type_name", ← spell cx base)]
  | .union _ | .struct _ | .sealed | .string | .handle => pure []

/-- Each field as a parameter. -/
def parameters (cx : Context) (omitNames : Bool) : List Field → Noted (List String)
  | [] => pure []
  | f :: fs => do
    let text ← parameter cx omitNames f
    return text :: (← parameters cx omitNames fs)

def parameter (cx : Context) (omitNames : Bool) : Field → Noted String
  | ⟨name, some t, value, annot⟩ => do
    let field : Field := ⟨name, some t, value, annot⟩
    let facts := ownFacts cx field ++ (← typeFacts cx t)
    let text ← Noted.concat (cx.snip · facts) (parameterSnippets t)
    if text.isEmpty then
      let plain ← spell cx t
      return plain ++ (if omitNames then "" else " " ++ name) ++ field.initText
    else return special cx.multiline text
  | ⟨name, none, value, annot⟩ =>
    let field : Field := ⟨name, none, value, annot⟩
    pure ((if omitNames then "" else name) ++ field.initText)

/-- Each field as a member, with the semicolon and newline that end it. -/
def members (cx : Context) : List Field → Noted (List String)
  | [] => pure []
  | f :: fs => do
    let text ← member cx f
    return text :: (← members cx fs)

def member (cx : Context) : Field → Noted String
  | ⟨name, some t, value, annot⟩ => do
    let field : Field := ⟨name, some t, value, annot⟩
    let facts := ownFacts cx field ++ (← typeFacts cx t)
    let text ← Noted.concat (cx.snip · facts) (memberSnippets t)
    if text.isEmpty then
      let plain ← spell cx t
      return plain ++ " " ++ name ++ field.initText ++ ";\n"
    else return special false text ++ ";\n"
  | ⟨name, none, value, annot⟩ =>
    let field : Field := ⟨name, none, value, annot⟩
    pure (name ++ field.initText ++ ";\n")

end

end IdlStencil.Render
