/-!
Substitutions: pairs of a placeholder and its replacement, in the order in which they were found.
A placeholder may come twice, and then the first pair counts.
-/

namespace IdlStencil.Template

abbrev Substitutions := List (String × String)

/-- The replacement for a key. -/
def Substitutions.get? (subs : Substitutions) (key : String) : Option String := subs.lookup key

def Substitutions.keys (subs : Substitutions) : List String := subs.map Prod.fst

end IdlStencil.Template
