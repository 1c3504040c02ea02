import IdlStencil.Decimal.Binary64

/-!
JSON numbers. A number is kept as it is spelled, and its value is one of three kinds: a natural
number below `2 ^ 64`, a negative integer not below `-2 ^ 63`, or a binary floating point number.

A number that is not such an integer is computed from the leading digits that fit in 64 bits and a
power of ten, by one rounded multiplication or division (a second division for exponents below
those of the format). Too large a result is no value at all.
-/

namespace IdlStencil.Json

open Decimal (Binary64 Magnitude)

/-- A number as spelled. The exponent is the signed value of its digits. -/
structure Number where
  negative : Bool
  whole : List Nat
  fraction : Option (List Nat)
  exponent : Option Int
  deriving DecidableEq, Repr

inductive Numeric where
  | natural (n : Nat)
  | negative (i : Int)
  | float (x : Binary64)
  deriving DecidableEq, Repr

/-- One more digit, unless the result does not fit in 64 bits. -/
def appendDigit? (significand digit : Nat) : Option Nat :=
  let s := significand * 10 + digit
  if s < UInt64.size then some s else none

/-- The digits before the point: what fits in 64 bits, and how many digits were left out. -/
def absorbWhole (significand : Nat) : List Nat → Nat × Nat
  | [] => (significand, 0)
  | d :: ds =>
    match appendDigit? significand d with
    | some s => absorbWhole s ds
    | none => (significand, ds.length + 1)

/-- The digits after the point: what fits in 64 bits, and how many digits were taken. -/
def absorbFraction (significand : Nat) : List Nat → Nat × Nat
  | [] => (significand, 0)
  | d :: ds =>
    match appendDigit? significand d with
    | some s => let (s, taken) := absorbFraction s ds; (s, taken + 1)
    | none => (significand, 0)

/-- Rounded division by the largest power of ten of the format, `n` times. -/
def divideByLargest : (n : Nat) → Magnitude → Option Magnitude
  | 0, x => some x
  | n + 1, x => do divideByLargest n (← x.div? (.tenPower 308))

/-- `significand * 10 ^ exponent`, rounded at each step. -/
def scale? (significand : Nat) (exponent : Int) : Option Magnitude := do
  let x ← Magnitude.ofNat? significand
  if x.isZero then return x
  else if 308 < exponent then none
  else if 0 ≤ exponent then x.mul? (.tenPower exponent.toNat)
  else
    let size := (-exponent).toNat
    -- Two divisions by the largest power leave nothing of any significand.
    let large := if size ≤ 308 then 0 else min 3 ((size - 1) / 308)
    (← divideByLargest large x).div? (.tenPower (min 308 (size - 308 * large)))

namespace Number

/-- The value as a floating point number. -/
def float? (n : Number) (significand : Nat) (exponent : Int) : Option Numeric :=
  (scale? significand exponent).map fun x => .float (.finite n.negative x)

/-- The value; none when it is too large. Zero with a minus sign is a floating point number, and so
is an integer that no 64 bits hold. -/
def value? (n : Number) : Option Numeric :=
  let (significand, left) := absorbWhole 0 n.whole
  match n.fraction, n.exponent, left with
  | none, none, 0 =>
    if !n.negative then some (.natural significand)
    else if significand ≠ 0 && 2 * significand ≤ UInt64.size then some (.negative (-significand))
    else n.float? significand 0
  | fraction, exponent, left =>
    let (significand, taken) := absorbFraction significand (fraction.getD [])
    n.float? significand ((left : Int) - taken + exponent.getD 0)

end Number
end IdlStencil.Json
