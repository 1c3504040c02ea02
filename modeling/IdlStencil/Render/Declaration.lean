import IdlStencil.Render.Function

/-!
The spelling of a declaration and the facts about it.
-/

namespace IdlStencil.Render

open Template (Substitutions)
open Idl (Declaration)

/-- The spelling of a declaration. A constant has no spelling of its own but a snippet. -/
def declare (cx : Context) : Declaration → Noted String
  | .const name value => cx.snip "const" [("NAME", name), ("VAL", value.text)]
  | .typedef name base => do return "typedef " ++ (← spell cx base) ++ " " ++ name ++ ";\n"
  | .struct name fields => do
    return "struct " ++ name ++ " \x7b\n" ++ (← semiBlock cx fields) ++ "\x7d;\n"
  | .enum name storage fields => do
    let base ← spell cx storage
    return "enum " ++ name ++ " : " ++ base ++ " \x7b" ++ (← commaList cx false fields) ++ "\x7d;\n"
  | .union name fields => do
    return "union " ++ name ++ " \x7b\n" ++ (← semiBlock cx fields) ++ "\x7d;\n"
  | .imported name => pure ("import " ++ name ++ ";\n")
  | .function f => do return f.name ++ "(" ++ (← paramsAndCallback cx f) ++ ")"

/-- The facts about a declaration. -/
def declarationFacts (cx : Context) : Declaration → Noted Substitutions
  | .const name value =>
    pure [("const_name", name), ("const_value", value.text),
      ("const_vts_type", if value.isString then "bytes" else "int32_t")]
  | .typedef name base => do return ("typedef_name", name) :: (← typeFacts cx base)
  | .struct name fields => do
    return [("struct_fields", ← semiBlock cx fields), ("struct_name", name),
      ("struct_gen_fields", ← byType cx "struct_field_" fields)]
  | .enum name storage fields => do
    return [("enum_fields", ← commaList cx false fields), ("enum_name", name),
      ("enum_base_type", ← spell cx storage),
      ("quoted_fields_of_enum", ← nameList cx (some "enum_quoted_name") fields)]
  | .union name fields => do
    return [("union_fields", ← semiBlock cx fields), ("union_name", name),
      ("union_gen_fields", ← byType cx "union_field_" fields)]
  | .imported name => pure [("import_name", name)]
  | .function f => functionFacts cx f

end IdlStencil.Render
