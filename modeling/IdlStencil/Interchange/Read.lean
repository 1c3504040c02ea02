import IdlStencil.Json.Record
import IdlStencil.Idl.Unit

/-!
Reading units and their parts from JSON documents. Types and fields hold each other, so reading a
type is defined one level at a time: `Ty.level` reads a type given a reader for the types inside
it, and as many levels are stacked as the depth limit leaves room for.

A declaration is told by its kind, which may stand anywhere among its members. The other members
are held until it is known, and only then read.
-/

namespace IdlStencil.Idl

open Json

def Scalar.read : Reader Scalar :=
  Reader.variant (Scalar.all.map fun s => (s.name, .bare s))

def Literal.read : Reader Literal :=
  let carrying (make : String → Literal) : Reader Literal := fun source d =>
    (Reader.string source d).map make
  Reader.variant [("string", .value (carrying .string)), ("number", .value (carrying .number)),
    ("ident", .value (carrying .ident))]

def annotValues : Reader (List AnnotValue) := Reader.list (Reader.optional Literal.read)

def Annot.slots :
    Slots [String, UInt32, List AnnotValue, OrderedMap (List AnnotValue)] :=
  .cons (required "name" Reader.string) <|
  .cons (defaulted "line" Reader.natural32 0) <|
  .cons (defaulted "values" annotValues []) <|
  .cons (defaulted "entries" (Reader.map annotValues) .empty) .nil

def Annot.read : Reader Annot := fun source d =>
  (Reader.record "struct Annotation" Annot.slots source d).map
    fun (name, line, values, entries, ()) => { name, line, values, entries }

def annotList : Reader (List Annot) := Reader.list Annot.read

/-! ## Types and fields -/

section Level

variable (inner : Reader Ty)

def Field.slots : Slots [String, Option Ty, Option Literal, Option Annot] :=
  .cons (required "name" Reader.string) <|
  .cons (defaulted "type" (Reader.optional inner) none) <|
  .cons (defaulted "value" (Reader.optional Literal.read) none) <|
  .cons (defaulted "annotation" (Reader.optional Annot.read) none) .nil

def Field.readWith : Reader Field := fun source d =>
  (Reader.record "struct Field" (Field.slots inner) source d).map
    fun (name, type, value, annot, ()) => { name, type, value, annot }

def enumSlots : Slots [Ty, List Field] :=
  .cons (required "storage" inner) <|
  .cons (required "fields" (Reader.list (Field.readWith inner))) .nil

def Ty.arraySlots : Slots [Ty, String] :=
  .cons (required "base" inner) <| .cons (required "dimension" Reader.string) .nil

def Ty.namedSlots : Slots [String, Ty] :=
  .cons (required "name" Reader.string) <| .cons (required "base" inner) .nil

/-- What each kind of type carries, in the order in which messages list the kinds. -/
def Ty.alternatives : List (String × Reader.Payload Ty) :=
  let fields := Reader.list (Field.readWith inner)
  [("scalar", .value fun source d => (Scalar.read source d).map .scalar),
    ("vec", .value fun source d => (inner source d).map .vec),
    ("array", .record fun source d =>
      (Reader.record "struct variant Type::Array" (Ty.arraySlots inner) source d).map
        fun (base, dimension, ()) => .array base dimension),
    ("enum", .value fun source d =>
      (Reader.record "struct EnumType" (enumSlots inner) source d).map
        fun (storage, fields, ()) => .enum storage fields),
    ("union", .value fun source d => (fields source d).map .union),
    ("struct", .value fun source d => (fields source d).map .struct),
    ("named", .record fun source d =>
      (Reader.record "struct variant Type::Named" (Ty.namedSlots inner) source d).map
        fun (name, base, ()) => .named name base),
    ("ref", .value fun source d => (inner source d).map .ref),
    ("opaque", .bare .sealed), ("string", .bare .string), ("handle", .bare .handle)]

/-- Reads a type, given a reader for the types inside it. -/
def Ty.level : Reader Ty := Reader.variant (Ty.alternatives inner)

end Level

/-- Reads types that hold types at most `levels` deep. -/
def Ty.readLevels : (levels : Nat) → Reader Ty
  | 0 => Ty.level fun _ _ => .error .malformed
  | levels + 1 => Ty.level (Ty.readLevels levels)

/-- Every level opens at least one object, so the depth limit bounds the levels. -/
def Ty.read : Reader Ty := Ty.readLevels depthLimit

def Field.read : Reader Field := Field.readWith Ty.read

def fieldList : Reader (List Field) := Reader.list Field.read

/-! ## Declarations -/

def Function.slots : Slots [String, List Field, List Field, List Annot, UInt32] :=
  .cons (required "name" Reader.string) <|
  .cons (defaulted "params" fieldList []) <|
  .cons (defaulted "generates" fieldList []) <|
  .cons (defaulted "annotations" annotList []) <|
  .cons (defaulted "line" Reader.natural32 0) .nil

def Function.read : Reader Function := fun source d =>
  (Reader.record "struct Function" Function.slots source d).map
    fun (name, params, generates, annotations, line, ()) =>
      { name, params, generates, annotations, line }

namespace Declaration

def constSlots : Slots [String, Literal] :=
  .cons (required "name" Reader.string) <| .cons (required "value" Literal.read) .nil

def typedefSlots : Slots [String, Ty] :=
  .cons (required "name" Reader.string) <| .cons (required "base" Ty.read) .nil

def fieldsSlots : Slots [String, List Field] :=
  .cons (required "name" Reader.string) <| .cons (defaulted "fields" fieldList []) .nil

def nameSlots : Slots [String] := .cons (required "name" Reader.string) .nil

/-- The members other than the name, which is read where it stands. -/
def splitName (source : Source) : List (Option String × Doc) → Option String →
    Except Fault (Option String × List (Option String × Doc))
  | [], name => .ok (name, [])
  | (some "name", d) :: ds, name =>
    match name with
    | some _ => .error (.shape (.duplicateField "name"))
    | none => do splitName source ds (some (← Reader.string source d))
  | member :: ds, name => do
    let (name, others) ← splitName source ds name
    return (name, member :: others)

/-- The body of an enum declaration: the members of an enum type beside the name. -/
def readEnum : Reader Declaration := fun source d =>
  match d with
  | .object ds _ => do
    let (name, others) ← splitName source ds none
    match name with
    | none => .error (.shape (.missingField "name"))
    | some name =>
      let slots := enumSlots Ty.read
      let (storage, fields, ()) ← slots.finish (← slots.members source others slots.start)
      return .enum name storage fields
  | d => refuse d "struct EnumDecl"

/-- The kinds of declarations with what their bodies hold, in the order in which messages list
them. -/
def alternatives : List (String × Reader Declaration) :=
  [("const", fun source d => (Reader.record "struct ConstDecl" constSlots source d).map
      fun (name, value, ()) => .const name value),
    ("typedef", fun source d => (Reader.record "struct TypedefDecl" typedefSlots source d).map
      fun (name, base, ()) => .typedef name base),
    ("struct", fun source d => (Reader.record "struct StructDecl" fieldsSlots source d).map
      fun (name, fields, ()) => .struct name fields),
    ("enum", readEnum),
    ("union", fun source d => (Reader.record "struct UnionDecl" fieldsSlots source d).map
      fun (name, fields, ()) => .union name fields),
    ("import", fun source d => (Reader.record "struct ImportDecl" nameSlots source d).map
      fun (name, ()) => .imported name),
    ("function", fun source d => (Function.read source d).map .function)]

/-- The body that a kind announces. -/
def readKind : Reader (Reader Declaration) := fun source d => do
  let name ← Reader.text "variant identifier" source d
  match alternatives.lookup name with
  | some body => return body
  | none => .error (.shape (.unknownVariant name (alternatives.map Prod.fst)))

/-- The members other than the kind, held, and the body that the kind announces. -/
def splitKind (source : Source) : List (Option String × Doc) → Option (Reader Declaration) →
    Except Fault (Option (Reader Declaration) × List (Option String × Doc))
  | [], kind => .ok (kind, [])
  | (none, _) :: _, _ => .error .malformed
  | (some "kind", d) :: ds, kind =>
    match kind with
    | some _ => .error (.shape (.duplicateField "kind"))
    | none => do splitKind source ds (some (← readKind source d))
  | (key, d) :: ds, kind => do
    source.hold d
    let (kind, others) ← splitKind source ds kind
    return (kind, (key, d) :: others)

/-- Holds the items in order. -/
def holdItems (source : Source) : List Doc → Except Fault Unit
  | [] => .ok ()
  | d :: ds => do
    source.hold d
    holdItems source ds

def read : Reader Declaration := fun source d =>
  match d with
  | .object ds closed => do
    let inner ← source.enter
    let (kind, others) ← splitKind inner ds none
    inner.leave closed
    match kind with
    | some body => body .held (.object others true)
    | none => .error (.shape (.missingField "kind"))
  | .array ds closed => do
    let inner ← source.enter
    match ds with
    | [] =>
      inner.leave closed
      .error (.shape (.missingField "kind"))
    | d :: ds =>
      let body ← readKind inner d
      holdItems inner ds
      inner.leave closed
      body .held (.array ds true)
  | d => refuse d "internally tagged enum Declaration"

end Declaration

/-! ## Units -/

def Version.read : Reader Version := fun source d => do
  let s ← Reader.string source d
  match Version.parse s with
  | .ok v => return v
  | .error e => .error (.shape (.refused e.message))

def Interface.slots : Slots [String, List Annot, UInt32] :=
  .cons (required "name" Reader.string) <|
  .cons (defaulted "annotations" annotList []) <|
  .cons (defaulted "line" Reader.natural32 0) .nil

def Interface.read : Reader Interface := fun source d =>
  (Reader.record "struct Interface" Interface.slots source d).map
    fun (name, annotations, line, ()) => { name, annotations, line }

def PackageUnit.slots : Slots [String, Version, List String, List (List String), Option Interface,
    List Declaration, List Field] :=
  .cons (required "package" Reader.string) <|
  .cons (required "version" Version.read) <|
  .cons (defaulted "namespace" (Reader.list Reader.string) []) <|
  .cons (defaulted "imports" (Reader.list (Reader.list Reader.string)) []) <|
  .cons (defaulted "interface" (Reader.optional Interface.read) none) <|
  .cons (defaulted "declarations" (Reader.list Declaration.read) []) <|
  .cons (defaulted "vars" fieldList []) .nil

def PackageUnit.read : Reader PackageUnit := fun source d =>
  (Reader.record "struct Unit" PackageUnit.slots source d).map
    fun (package, version, namespacePath, imports, interface, declarations, vars, ()) =>
      { package, version, namespacePath, imports, interface, declarations, vars }

end IdlStencil.Idl
