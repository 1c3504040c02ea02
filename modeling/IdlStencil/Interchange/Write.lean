import IdlStencil.Json.Value
import IdlStencil.Idl.Unit

/-!
Units and their parts as JSON values. Members come in the order of the fields of each record.
Defaults are written, with two exceptions: what a field does not have, and the empty lists of an
annotation.
-/

namespace IdlStencil.Idl

open Json (Value)

def Scalar.toJson (s : Scalar) : Value := .string s.name

def Literal.toJson : Literal → Value
  | .string s => .object [("string", .string s)]
  | .number s => .object [("number", .string s)]
  | .ident s => .object [("ident", .string s)]

def lineJson (line : UInt32) : Value := .number line.toNat

/-- A member that is left out when there is nothing to write. -/
def memberJson (name : String) : Option Value → List (String × Value)
  | some v => [(name, v)]
  | none => []

def annotValueJson : AnnotValue → Value
  | some l => l.toJson
  | none => .null

def annotValuesJson (values : List AnnotValue) : Value :=
  .array (values.map annotValueJson)

def Annot.toJson (a : Annot) : Value :=
  .object ([("name", .string a.name), ("line", lineJson a.line)] ++
    memberJson "values" (if a.values.isEmpty then none else some (annotValuesJson a.values)) ++
    memberJson "entries" (if a.entries.isEmpty then none
      else some (.object (a.entries.entries.map fun (key, vs) => (key, annotValuesJson vs)))))

def annotationsJson (annotations : List Annot) : Value :=
  .array (annotations.map Annot.toJson)

mutual

def Ty.toJson : Ty → Value
  | .scalar s => .object [("scalar", s.toJson)]
  | .vec base => .object [("vec", base.toJson)]
  | .array base dimension =>
    .object [("array", .object [("base", base.toJson), ("dimension", .string dimension)])]
  | .enum storage fields =>
    .object [("enum", .object [("storage", storage.toJson), ("fields", .array (fieldItems fields))])]
  | .union fields => .object [("union", .array (fieldItems fields))]
  | .struct fields => .object [("struct", .array (fieldItems fields))]
  | .named name base =>
    .object [("named", .object [("name", .string name), ("base", base.toJson)])]
  | .ref base => .object [("ref", base.toJson)]
  | .sealed => .string "opaque"
  | .string => .string "string"
  | .handle => .string "handle"

def fieldItems : List Field → List Value
  | [] => []
  | f :: fs => f.toJson :: fieldItems fs

def Field.toJson : Field → Value
  | ⟨name, type, value, annot⟩ =>
    .object ([("name", .string name)] ++
      (match type with
        | some t => [("type", t.toJson)]
        | none => []) ++
      memberJson "value" (value.map Literal.toJson) ++
      memberJson "annotation" (annot.map Annot.toJson))

end

def fieldsJson (fields : List Field) : Value := .array (fieldItems fields)

/-- The members of a function, without the kind that a declaration adds. -/
def Function.members (f : Function) : List (String × Value) :=
  [("name", .string f.name), ("params", fieldsJson f.params), ("generates", fieldsJson f.generates),
    ("annotations", annotationsJson f.annotations), ("line", lineJson f.line)]

def Function.toJson (f : Function) : Value := .object f.members

def Declaration.members : Declaration → List (String × Value)
  | .const name value => [("name", .string name), ("value", value.toJson)]
  | .typedef name base => [("name", .string name), ("base", base.toJson)]
  | .struct name fields => [("name", .string name), ("fields", fieldsJson fields)]
  | .enum name storage fields =>
    [("name", .string name), ("storage", storage.toJson), ("fields", fieldsJson fields)]
  | .union name fields => [("name", .string name), ("fields", fieldsJson fields)]
  | .imported name => [("name", .string name)]
  | .function f => f.members

def Declaration.toJson (d : Declaration) : Value :=
  .object (("kind", .string d.kind) :: d.members)

def Interface.toJson (i : Interface) : Value :=
  .object [("name", .string i.name), ("annotations", annotationsJson i.annotations),
    ("line", lineJson i.line)]

def stringsJson (ss : List String) : Value := .array (ss.map .string)

def PackageUnit.toJson (u : PackageUnit) : Value :=
  .object [("package", .string u.package), ("version", .string u.version.text),
    ("namespace", stringsJson u.namespacePath), ("imports", .array (u.imports.map stringsJson)),
    ("interface", match u.interface with
      | some i => i.toJson
      | none => .null),
    ("declarations", .array (u.declarations.map Declaration.toJson)), ("vars", fieldsJson u.vars)]

end IdlStencil.Idl
