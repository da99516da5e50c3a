/-!
Division of whole numbers by way of binary fractions: the exact quotient is rounded to the nearest
number with 53 significant bits, ties going to the even one, and its fraction is then dropped.
-/

namespace TableScript

/-- The quotient of two natural numbers rounded to the nearest natural number, a tie to the even
one. -/
def roundDiv (n d : Nat) : Nat :=
  let q := n / d
  let r := n % d
  if d < 2 * r ∨ (d = 2 * r ∧ q % 2 = 1) then q + 1 else q

/-- The exponent of the leading binary digit of `n / d`, for positive `n` and `d`. -/
def leadingExponent (n d : Nat) : Int :=
  let e : Int := (n.log2 : Int) - (d.log2 : Int)
  let reached := if 0 ≤ e then d * Nat.pow 2 e.toNat ≤ n else d ≤ n * Nat.pow 2 (-e).toNat
  if reached then e else e - 1

/-- The number of significant binary digits of a rounded quotient. -/
def significantBits : Nat := 53

/-- The exponent from which on a rounded quotient is too large. -/
def exponentLimit : Nat := 1024

/-- The whole part of `n / d` rounded to 53 significant bits; `none` if it is too large. -/
def roundedQuotientNat (n d : Nat) : Option Nat :=
  if n = 0 then some 0
  else
    let shift : Int := leadingExponent n d - (significantBits - 1)
    let whole :=
      if 0 ≤ shift then roundDiv n (d * Nat.pow 2 shift.toNat) * Nat.pow 2 shift.toNat
      else roundDiv (n * Nat.pow 2 (-shift).toNat) d / Nat.pow 2 (-shift).toNat
    if whole < Nat.pow 2 exponentLimit then some whole else none

/-- The quotient of two whole numbers, rounded to 53 significant bits and then truncated; `none` if
it is too large. The divisor is not zero. -/
def roundedQuotient (a b : Int) : Option Int :=
  (roundedQuotientNat a.natAbs b.natAbs).map fun q =>
    if (a < 0) = (b < 0) then (q : Int) else -(q : Int)

end TableScript
