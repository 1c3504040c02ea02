/-!
Paths as they are written on a command line: names with slashes between them, from the root of all
files when they start with a slash.
-/

namespace IdlStencil.CommandLine

/-- The longest name in bytes. -/
def nameLimit : Nat := 255

/-- The longest path in bytes. -/
def pathLimit : Nat := 4095

/-- The names of a path between its slashes. -/
def pathNames (path : String) : List String := (path.toList.splitOn '/').map String.ofList

/-- Whether a path starts at the root. -/
def isRooted (path : String) : Bool := path.toList.head? = some '/'

/-- The names of the directories to make for a path. A path that ends in a dot is for a directory
that is there, so that only those around it are made. -/
def namesToMake (path : String) : List String :=
  let names := (pathNames path).filter (· ≠ "")
  if names.getLast? = some "." then (names.filter (· ≠ ".")).dropLast else names

/-- The path that leads along names from where another path starts. -/
def pathAlong (path : String) (names : List String) : String :=
  (if isRooted path then "/" else "") ++ "/".intercalate names

end IdlStencil.CommandLine
