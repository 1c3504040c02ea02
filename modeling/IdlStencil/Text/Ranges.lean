/-!
Membership of a number in a list of closed ranges, the form in which character classes are kept.
-/

namespace IdlStencil.Text

/-- `n` lies in one of the closed ranges. -/
def inRanges (ranges : List (Nat × Nat)) (n : Nat) : Bool :=
  ranges.any fun (low, high) => low ≤ n && n ≤ high

end IdlStencil.Text
