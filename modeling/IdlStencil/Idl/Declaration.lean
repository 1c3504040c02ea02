import IdlStencil.Idl.Ty

/-!
Declarations of a unit. A function that generates results hands them to a callback.
-/

namespace IdlStencil.Idl

structure Function where
  name : String
  params : List Field := []
  generates : List Field := []
  annotations : List Annot := []
  line : UInt32 := 0
  deriving Repr

def Function.hasCallback (f : Function) : Bool := !f.generates.isEmpty

inductive Declaration where
  | const (name : String) (value : Literal)
  | typedef (name : String) (base : Ty)
  | struct (name : String) (fields : List Field)
  | enum (name : String) (storage : Ty) (fields : List Field)
  | union (name : String) (fields : List Field)
  | imported (name : String)
  | function (f : Function)
  deriving Repr

namespace Declaration

def kind : Declaration → String
  | .const _ _ => "const"
  | .typedef _ _ => "typedef"
  | .struct _ _ => "struct"
  | .enum _ _ _ => "enum"
  | .union _ _ => "union"
  | .imported _ => "import"
  | .function _ => "function"

def name : Declaration → String
  | .const name _ | .typedef name _ | .struct name _ | .enum name _ _ | .union name _
  | .imported name => name
  | .function f => f.name

def function? : Declaration → Option Function
  | .function f => some f
  | _ => none

end Declaration
end IdlStencil.Idl
