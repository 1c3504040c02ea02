/-!
The scalar types of an interface description, with their names and the tags the test suite knows
them by.
-/

namespace IdlStencil.Idl

inductive Scalar where
  | bool
  | int8
  | uint8
  | int16
  | uint16
  | int32
  | uint32
  | int64
  | uint64
  | float
  | double
  deriving DecidableEq, Repr

namespace Scalar

/-- All scalar types, in the order in which messages list them. -/
def all : List Scalar :=
  [.bool, .int8, .uint8, .int16, .uint16, .int32, .uint32, .int64, .uint64, .float, .double]

def name : Scalar → String
  | .bool => "bool"
  | .int8 => "int8_t"
  | .uint8 => "uint8_t"
  | .int16 => "int16_t"
  | .uint16 => "uint16_t"
  | .int32 => "int32_t"
  | .uint32 => "uint32_t"
  | .int64 => "int64_t"
  | .uint64 => "uint64_t"
  | .float => "float"
  | .double => "double"

/-- The tag of the test suite: every tag ends in `_t`. -/
def suiteTag : Scalar → String
  | .bool => "bool_t"
  | .float => "float_t"
  | .double => "double_t"
  | s => s.name

end Scalar
end IdlStencil.Idl
