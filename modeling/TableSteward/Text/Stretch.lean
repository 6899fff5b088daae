/-!
# Stretches of code points

A set of characters is given by the code points where its stretches begin and end, in turn and in ascending
order: a code point belongs to the set if an odd number of these bounds is reached by it.
-/
set_option autoImplicit false

namespace TableSteward.Text

/-- The number of bounds up to `n`, found by halving the interval `[lo, hi)`. -/
def boundsUpTo (bounds : Array Nat) (n : Nat) : Nat → Nat → Nat → Nat
  | 0, lo, _ => lo
  | fuel + 1, lo, hi =>
      if lo < hi then
        let mid := (lo + hi) / 2
        if bounds[mid]?.getD 0 ≤ n then boundsUpTo bounds n fuel (mid + 1) hi
        else boundsUpTo bounds n fuel lo mid
      else lo

def inStretches (bounds : Array Nat) (n : Nat) : Bool :=
  boundsUpTo bounds n bounds.size 0 bounds.size % 2 == 1

end TableSteward.Text
