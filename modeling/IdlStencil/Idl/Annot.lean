import IdlStencil.OrderedMap
import IdlStencil.Idl.Literal

/-!
Annotations: a name and a line, unnamed values, and named lists of values. A value may lack its
literal.
-/

namespace IdlStencil.Idl

/-- The literal of an annotation value, where there is one. -/
abbrev AnnotValue := Option Literal

structure Annot where
  name : String
  line : UInt32 := 0
  values : List AnnotValue := []
  entries : OrderedMap (List AnnotValue) := .empty
  deriving DecidableEq, Repr

namespace Annot

/-- The annotation at a line. -/
def atLine (a : Annot) (line : UInt32) : Annot := { a with line }

/-- The annotation with one more unnamed value. -/
def addValue (a : Annot) (value : AnnotValue) : Annot :=
  { a with values := a.values ++ [value] }

/-- The annotation with a named list of values. -/
def addEntry (a : Annot) (key : String) (values : List AnnotValue) : Annot :=
  { a with entries := a.entries.insert key values }

end Annot

/-- The first annotation with a name. -/
def annotNamed? (annotations : List Annot) (name : String) : Option Annot :=
  annotations.find? fun a => a.name = name

def hasAnnot (annotations : List Annot) (name : String) : Bool :=
  (annotNamed? annotations name).isSome

end IdlStencil.Idl
