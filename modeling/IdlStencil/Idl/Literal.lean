/-!
Literals, kept as the text between their delimiters.
-/

namespace IdlStencil.Idl

inductive Literal where
  | string (text : String)
  | number (text : String)
  | ident (text : String)
  deriving DecidableEq, Repr

namespace Literal

/-- The text without delimiters. -/
def unquoted : Literal → String
  | .string s | .number s | .ident s => s

/-- The literal as it is written: strings stand between double quotes. Nothing is escaped. -/
def text : Literal → String
  | .string s => "\"" ++ s ++ "\""
  | .number s | .ident s => s

def isString : Literal → Bool
  | .string _ => true
  | _ => false

end Literal
end IdlStencil.Idl
