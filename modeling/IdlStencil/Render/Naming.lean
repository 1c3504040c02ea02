/-!
Two small transformations of names and fragments.
-/

namespace IdlStencil.Render

/-- The token of a name in an enumeration of calls: letters of ASCII in upper case, all else
unchanged. -/
def dispatchToken (name : String) : String := String.ofList (name.toList.map Char.toUpper)

/-- The fragment on one line: every newline becomes a blank. -/
def flatten (s : String) : String :=
  String.ofList (s.toList.map fun c => if c = '\n' then ' ' else c)

end IdlStencil.Render
