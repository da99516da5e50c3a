/-!
Ranges: the numbers from one bound to the other, both included, up or down.
-/

namespace TableScript

def rangeElements (start stop : Int) : List Int :=
  if start ≤ stop then
    (List.range (stop - start + 1).toNat).map fun (i : Nat) => start + i
  else (List.range (start - stop + 1).toNat).map fun (i : Nat) => start - i

/-- The number of numbers from `start` to `stop`. -/
def rangeSize (start stop : Int) : Nat :=
  (stop - start).natAbs + 1

end TableScript
