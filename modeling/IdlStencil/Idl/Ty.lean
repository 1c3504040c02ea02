import IdlStencil.Idl.Annot
import IdlStencil.Idl.Scalar

/-!
Types and fields. A type may hold fields, and a field may hold a type: enumerators and other fields
without a type have none.

The suffix of a type names its shape in the names of snippets: the kind alone with `_all`, or the
kind followed by the suffix of what the type is built from.
-/

namespace IdlStencil.Idl

mutual

inductive Ty where
  | scalar (s : Scalar)
  | vec (base : Ty)
  | array (base : Ty) (dimension : String)
  | enum (storage : Ty) (fields : List Field)
  | union (fields : List Field)
  | struct (fields : List Field)
  /-- An alias for another type. -/
  | named (name : String) (base : Ty)
  | ref (base : Ty)
  /-- A type nothing is known about. -/
  | sealed
  | string
  | handle

structure Field where
  name : String
  type : Option Ty := none
  value : Option Literal := none
  annot : Option Annot := none

end

deriving instance Repr for Ty, Field

namespace Ty

def kind : Ty → String
  | .scalar _ => "scalar"
  | .vec _ => "vec"
  | .array _ _ => "array"
  | .enum _ _ => "enum"
  | .union _ => "union"
  | .struct _ => "struct"
  | .named _ _ => "named"
  | .ref _ => "ref"
  | .sealed => "opaque"
  | .string => "string"
  | .handle => "handle"

/-- The kinds of a type, of its base, and so on. -/
def chain : Ty → List String
  | .vec base => "vec" :: base.chain
  | .array base _ => "array" :: base.chain
  | .named _ base => "named" :: base.chain
  | .ref base => "ref" :: base.chain
  | t => [t.kind]

/-- The suffix that names the whole shape of a type. -/
def suffix : Ty → String
  | .scalar s => "scalar_" ++ s.name
  | .enum storage _ => "enum_" ++ storage.suffix
  | .vec base => "vec_" ++ base.suffix
  | .ref base => "ref_" ++ base.suffix
  | .array base _ => "array_" ++ base.suffix
  | .named _ base => "named_" ++ base.suffix
  | t => t.kind

/-- The suffix that names the kind of a type only. -/
def kindSuffix (t : Ty) : String := t.kind ++ "_all"

/-- Scalars, enums and strings, also behind aliases. -/
def isPrimitive : Ty → Bool
  | .scalar _ | .enum _ _ | .string => true
  | .named _ base => base.isPrimitive
  | _ => false

/-- The tag of the test suite. An alias has the tag of what it names. -/
def suiteTag : Ty → String
  | .scalar s => s.suiteTag
  | .named _ base => base.suiteTag
  | .vec _ => "TYPE_VECTOR"
  | .array _ _ => "TYPE_ARRAY"
  | .enum _ _ => "TYPE_ENUM"
  | .union _ => "TYPE_UNION"
  | .struct _ => "TYPE_STRUCT"
  | .ref _ => "TYPE_REF"
  | .sealed => "TYPE_OPAQUE"
  | .string => "TYPE_STRING"
  | .handle => "TYPE_HANDLE"

end Ty

namespace Field

/-- A field without a type. -/
def enumerator (name : String) (value : Option Literal) : Field := { name, value }

/-- The initializer of a field, from the equals sign on. -/
def initText (f : Field) : String :=
  match f.value with
  | some v => " = " ++ v.text
  | none => ""

end Field
end IdlStencil.Idl
