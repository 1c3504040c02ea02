/-!
The lines of a text. A line ends at a newline, which is no part of it, and neither is one carriage
return right before the newline. What follows the last newline is a line when it is not empty.
-/

namespace IdlStencil.Text

/-- Takes one carriage return off the end of a line that is held back to front. -/
def dropReturn : List Char → List Char
  | '\r' :: cs => cs
  | cs => cs

/-- The lines of a text, given the line begun so far back to front. -/
def linesFrom (begun : List Char) : List Char → List (List Char)
  | [] => if begun.isEmpty then [] else [begun.reverse]
  | c :: cs =>
    if c = '\n' then (dropReturn begun).reverse :: linesFrom [] cs else linesFrom (c :: begun) cs

def lines (s : String) : List String :=
  (linesFrom [] s.toList).map String.ofList

end IdlStencil.Text
