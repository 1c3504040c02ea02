import IdlStencil.Idl.Declaration
import IdlStencil.Idl.Version

/-!
Units: the description of one package, with at most one interface.
-/

namespace IdlStencil.Idl

structure Interface where
  name : String
  annotations : List Annot := []
  line : UInt32 := 0
  deriving DecidableEq, Repr

structure PackageUnit where
  package : String
  version : Version
  namespacePath : List String := []
  imports : List (List String) := []
  interface : Option Interface := none
  declarations : List Declaration := []
  vars : List Field := []
  deriving Repr

/-- The functions among the declarations. -/
def PackageUnit.functions (u : PackageUnit) : List Function :=
  u.declarations.filterMap Declaration.function?

end IdlStencil.Idl
