import IdlStencil.Decimal.Shortest

/-!
Two ways to write a binary number by its shortest decimal. The positional one writes every number
without an exponent. The scientific one does so only for decimal exponents in a given range. Both
keep a point: a number without a fraction ends in `.0`.
-/

namespace IdlStencil.Decimal

/-- Digits with a point after the first `position` of them. -/
def placePoint (digits : List Char) (position : Int) : List Char :=
  let length : Int := digits.length
  if length ≤ position then
    digits ++ List.replicate (position - length).toNat '0' ++ ['.', '0']
  else if 0 < position then
    digits.take position.toNat ++ ['.'] ++ digits.drop position.toNat
  else
    ['0', '.'] ++ List.replicate (-position).toNat '0' ++ digits

/-- First digit, point, other digits, signed exponent. -/
def scientific (digits : List Char) (exponent : Int) : List Char :=
  let fraction := if digits.length ≤ 1 then [] else '.' :: digits.drop 1
  let sign := if exponent < 0 then '-' else '+'
  digits.take 1 ++ fraction ++ ['e', sign] ++ Nat.toDigits 10 exponent.natAbs

structure Layout where
  /-- The range of decimal exponents that are written positionally; none: all of them. -/
  positional : Option (Int × Int)
  tie : Tie

/-- Always positional; the larger of two decimals that are equally near. -/
def plainLayout : Layout := ⟨none, .awayFromZero⟩

/-- Positional from five zeros after the point up to sixteen digits before it; the even one of two
decimals that are equally near. -/
def compactLayout : Layout := ⟨some (-5, 15), .toEven⟩

def Layout.write (layout : Layout) (x : Magnitude) : List Char :=
  let d := x.shortest layout.tie
  let digits := Nat.toDigits 10 d.digits
  let position := digits.length + d.exponent
  match layout.positional with
  | none => placePoint digits position
  | some (low, high) =>
    if x.isZero || (low ≤ position - 1 && position - 1 ≤ high) then placePoint digits position
    else scientific digits (position - 1)

/-- The text of a number. A number that is no number has no sign. -/
def Layout.text (layout : Layout) : Binary64 → String
  | .finite negative x => String.ofList ((if negative then ['-'] else []) ++ layout.write x)
  | .infinite negative => if negative then "-inf" else "inf"
  | .nan => "NaN"

end IdlStencil.Decimal
