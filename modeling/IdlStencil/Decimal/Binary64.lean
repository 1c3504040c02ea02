/-!
Binary floating point numbers of 64 bits, held as exact values, with the roundings that reading a
decimal needs. A finite magnitude is `mantissa * 2 ^ exponent` with `mantissa < 2 ^ 53` and
`-1074 ≤ exponent ≤ 971`; the mantissa is at least `2 ^ 52` unless the exponent is the least one.
-/

namespace IdlStencil.Decimal

/-- A finite non-negative number `mantissa * 2 ^ exponent`. -/
structure Magnitude where
  mantissa : Nat
  exponent : Int
  deriving DecidableEq, Repr

inductive Binary64 where
  | finite (negative : Bool) (magnitude : Magnitude)
  | infinite (negative : Bool)
  | nan
  deriving DecidableEq, Repr

/-- The quotient rounded to the nearest integer, a half going to the even neighbour. -/
def roundDiv (num den : Nat) : Nat :=
  let q := num / den
  let r := num % den
  if den < 2 * r || (den = 2 * r && q % 2 = 1) then q + 1 else q

namespace Magnitude

def zero : Magnitude := ⟨0, -1074⟩

def isZero (x : Magnitude) : Bool := x.mantissa = 0

/-- Numerator and denominator of the exact value. -/
def ratio (x : Magnitude) : Nat × Nat :=
  if 0 ≤ x.exponent then (x.mantissa * Nat.pow 2 x.exponent.toNat, 1)
  else (x.mantissa, Nat.pow 2 (-x.exponent).toNat)

/-- `num / den ≥ 2 ^ k`. -/
def reachesPower (num den : Nat) (k : Int) : Bool :=
  if 0 ≤ k then den * Nat.pow 2 k.toNat ≤ num else den ≤ num * Nat.pow 2 (-k).toNat

/-- The exponent at which `num / den` has a mantissa of 53 bits, or the least exponent. -/
def exponentOf (num den : Nat) : Int :=
  let k : Int := (num.log2 : Int) - den.log2
  let top := if reachesPower num den k then k else k - 1
  max (top - 52) (-1074)

/-- The number nearest to `num / den`, ties to even; none above the largest finite number. -/
def round? (num den : Nat) : Option Magnitude :=
  if num = 0 then some zero
  else
    let e := exponentOf num den
    let m :=
      if 0 ≤ e then roundDiv num (den * Nat.pow 2 e.toNat)
      else roundDiv (num * Nat.pow 2 (-e).toNat) den
    let x : Magnitude := if m = Nat.pow 2 53 then ⟨Nat.pow 2 52, e + 1⟩ else ⟨m, e⟩
    if 971 < x.exponent then none else some x

def ofNat? (n : Nat) : Option Magnitude := round? n 1

/-- The rounded product. -/
def mul? (x y : Magnitude) : Option Magnitude :=
  round? (x.ratio.1 * y.ratio.1) (x.ratio.2 * y.ratio.2)

/-- The rounded quotient by a number that is not zero. -/
def div? (x y : Magnitude) : Option Magnitude :=
  round? (x.ratio.1 * y.ratio.2) (x.ratio.2 * y.ratio.1)

/-- The number nearest to `10 ^ n`, for `n ≤ 308`. -/
def tenPower (n : Nat) : Magnitude := (round? (Nat.pow 10 n) 1).getD zero

/-- The number nearest to `digits * 10 ^ exponent`; none when it is too large. Exponents far outside
the range of the format are not worth the power. -/
def ofDecimal? (digits : Nat) (exponent : Int) : Option Magnitude :=
  if digits = 0 then some zero
  else if 310 < exponent then none
  else if exponent + (Nat.toDigits 10 digits).length < -330 then some zero
  else if 0 ≤ exponent then round? (digits * Nat.pow 10 exponent.toNat) 1
  else round? digits (Nat.pow 10 (-exponent).toNat)

end Magnitude
end IdlStencil.Decimal
