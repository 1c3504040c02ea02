import IdlStencil.Decimal.Binary64

/-!
The shortest decimal that reads back as a given binary number. All decimals that round to
`x = m * 2 ^ e` form an interval around `x`, with its ends when `m` is even. Among the decimals with
the fewest digits in that interval the nearest to `x` is taken. Where two are equally near, a
parameter tells which of them it is.
-/

namespace IdlStencil.Decimal

/-- The decimal number `digits * 10 ^ exponent`. -/
structure Digits where
  digits : Nat
  exponent : Int
  deriving DecidableEq, Repr

/-- Which of two decimals at the same distance from a number is taken. -/
inductive Tie where
  /-- The one with an even last digit. -/
  | toEven
  /-- The larger one, signs aside. -/
  | awayFromZero
  deriving DecidableEq, Repr

namespace Digits

/-- Numerator and denominator of the exact value. -/
def ratio (d : Digits) : Nat × Nat :=
  if 0 ≤ d.exponent then (d.digits * Nat.pow 10 d.exponent.toNat, 1)
  else (d.digits, Nat.pow 10 (-d.exponent).toNat)

/-- Takes zeros off the end, at most `fuel` of them. -/
def strip : (fuel : Nat) → Digits → Digits
  | 0, d => d
  | fuel + 1, d =>
    if d.digits ≠ 0 && d.digits % 10 = 0 then strip fuel ⟨d.digits / 10, d.exponent + 1⟩ else d

end Digits

/-- Comparison of fractions by cross multiplication. -/
def ratioLe (a b : Nat × Nat) : Bool := a.1 * b.2 ≤ b.1 * a.2

def ratioLt (a b : Nat × Nat) : Bool := a.1 * b.2 < b.1 * a.2

namespace Magnitude

/-- The ends of the interval of reals that round to a number that is not zero. Below a power of two
the numbers lie twice as dense, so there the lower end is half as far away. -/
def interval (x : Magnitude) : (Nat × Nat) × (Nat × Nat) :=
  let quarter (n : Nat) : Nat × Nat := ratio ⟨n, x.exponent - 2⟩
  let below := if x.mantissa = Nat.pow 2 52 && -1074 < x.exponent then 1 else 2
  (quarter (4 * x.mantissa - below), quarter (4 * x.mantissa + 2))

/-- A decimal in the interval, its ends counting when the mantissa is even. -/
def readsBack (x : Magnitude) (d : Digits) : Bool :=
  let (low, high) := x.interval
  if x.mantissa % 2 = 0 then ratioLe low d.ratio && ratioLe d.ratio high
  else ratioLt low d.ratio && ratioLt d.ratio high

/-- The number of digits before the decimal point, less the zeros right after it. -/
def pointPosition (x : Magnitude) : Int :=
  let (num, den) := x.ratio
  if den ≤ num then (Nat.toDigits 10 (num / den)).length
  else
    match (List.range 330).find? fun j => den ≤ num * Nat.pow 10 (j + 1) with
    | some j => -(j : Int)
    | none => 0

/-- The nearer of the number's neighbours among the decimals with `n` digits, of those that read
back. -/
def withDigits? (tie : Tie) (x : Magnitude) (n : Nat) : Option Digits :=
  let unit := x.pointPosition - n
  let (num, den) := x.ratio
  let c :=
    if 0 ≤ unit then num / (den * Nat.pow 10 unit.toNat)
    else num * Nat.pow 10 (-unit).toNat / den
  let low : Digits := ⟨c, unit⟩
  let high : Digits := ⟨c + 1, unit⟩
  match x.readsBack low, x.readsBack high with
  | true, true =>
    -- Twice the number against the sum of its neighbours.
    let middle := Digits.ratio ⟨2 * c + 1, unit⟩
    let twice := (2 * num, den)
    if ratioLt twice middle then some low
    else if ratioLt middle twice then some high
    else if tie = .toEven && c % 2 = 0 then some low
    else some high
  | true, false => some low
  | false, true => some high
  | false, false => none

/-- The shortest decimal of a number; seventeen digits always suffice. -/
def shortest (tie : Tie) (x : Magnitude) : Digits :=
  if x.isZero then ⟨0, 0⟩
  else (((List.range 17).findSome? fun n => x.withDigits? tie (n + 1)).getD ⟨0, 0⟩).strip 20

end Magnitude
end IdlStencil.Decimal
