import IdlStencil.Decimal.Layout
import IdlStencil.Json.Doc
import IdlStencil.Text.Quoted

/-!
What can be wrong with a JSON text that should hold a value of some type: the text is malformed, or
it is JSON of the wrong shape. Every wrong shape has a cause, and every cause a message.
-/

namespace IdlStencil.Json

open Decimal (Binary64 compactLayout)

/-- What stands in the place of something else. -/
inductive Found where
  | null
  | boolean (b : Bool)
  | integer (n : Int)
  | float (x : Binary64)
  | text (s : String)
  | sequence
  | map
  /-- The bare name of a variant that carries something. -/
  | bareVariant
  deriving DecidableEq, Repr

def Found.describe : Found → String
  | .null => "null"
  | .boolean b => s!"boolean `{b}`"
  | .integer n => s!"integer `{n}`"
  | .float x => s!"floating point `{compactLayout.text x}`"
  | .text s => s!"string {Text.quoted s}"
  | .sequence => "sequence"
  | .map => "map"
  | .bareVariant => "unit variant"

inductive Cause where
  | wrongType (found : Found) (expected : String)
  | wrongValue (found : Found) (expected : String)
  | wrongLength (count : Nat) (expected : String)
  | missingField (name : String)
  | duplicateField (name : String)
  | unknownVariant (name : String) (known : List String)
  /-- A string that its own grammar refuses, with the reason. -/
  | refused (reason : String)
  deriving DecidableEq, Repr

/-- The known names, each between backquotes. -/
def oneOf (known : List String) : String :=
  "one of " ++ ", ".intercalate (known.map fun name => s!"`{name}`")

def Cause.message : Cause → String
  | .wrongType found expected => s!"invalid type: {found.describe}, expected {expected}"
  | .wrongValue found expected => s!"invalid value: {found.describe}, expected {expected}"
  | .wrongLength count expected => s!"invalid length {count}, expected {expected}"
  | .missingField name => s!"missing field `{name}`"
  | .duplicateField name => s!"duplicate field `{name}`"
  | .unknownVariant name known => s!"unknown variant `{name}`, expected {oneOf known}"
  | .refused reason => reason

inductive Fault where
  | malformed
  | shape (cause : Cause)
  deriving DecidableEq, Repr

/-- What a value is, as far as a decoder that expects something else has to look at it: a string or
number has to be read in full, an array or object only to be opened. -/
def Doc.found? : Doc → Option Found
  | .null => some .null
  | .bool b => some (.boolean b)
  | .number n => n.value?.map fun
    | .natural k => .integer k
    | .negative k => .integer k
    | .float x => .float x
  | .string s => s.map .text
  | .array _ _ => some .sequence
  | .object _ _ => some .map
  | .torn => none

end IdlStencil.Json
