import IdlStencil.Text.Lines
import IdlStencil.Text.Quoted

/-!
Comparing a rendered text with an expected one, with a report that points at the first line where
the two part.
-/

namespace IdlStencil.Text

/-- How two texts differ. -/
inductive Difference where
  /-- The lines with this number, counted from one, are the first that differ. -/
  | line (number : Nat) (expected actual : String)
  /-- All lines that both texts have agree; the texts have this many lines. -/
  | ending (expected actual : Nat)
  deriving DecidableEq, Repr

/-- The first pair of lines that differ, with its number. -/
def firstDifference (number : Nat) : List String → List String → Option Difference
  | e :: es, a :: as => if e = a then firstDifference (number + 1) es as else some (.line number e a)
  | _, _ => none

/-- No difference exactly for equal texts. -/
def compare? (expected actual : String) : Option Difference :=
  if expected = actual then none
  else
    let es := lines expected
    let as := lines actual
    some ((firstDifference 1 es as).getD (.ending es.length as.length))

def Difference.detail : Difference → String
  | .line number expected actual =>
    s!"line {number}:\n  expected: {quoted expected}\n  actual:   {quoted actual}"
  | .ending expected actual =>
    s!"{expected} expected lines, {actual} actual (trailing text or newlines differ)"

/-- The report on a difference ends with the whole actual text. -/
def Difference.report (d : Difference) (actual : String) : String :=
  s!"rendered output differs at {d.detail}\n--- actual ---\n{actual}"

end IdlStencil.Text
