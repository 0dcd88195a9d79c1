import Roteiro.Decimal.Binary

/-!
Exact operations on doubles: the remainder of a division, and the natural number that a double
holds.
-/

namespace Roteiro.Decimal

/-- Not a number. -/
def notANumber : Float := 0.0 / 0.0

/-- The remainder of `x` by `y`: what is left of `x` after taking away `y` as often as it goes in
whole, with the sign of `x`. It is exact, so nothing is rounded. -/
def remainder (x y : Float) : Float :=
  match decode x, decode y with
  | .finite m p, .finite n q =>
    if n = 0 then notANumber
    else
      let unit := min p q
      let a := m <<< (p - unit).toNat
      let b := n <<< (q - unit).toNat
      ofScaled (isNegative x) (a % b) unit
  | .finite _ _, .infinite => x
  | _, _ => notANumber

/-- The natural number that `x` holds, if it is whole and not negative. -/
def toNat? (x : Float) : Option Nat :=
  match decode x with
  | .finite m q =>
    if isNegative x && m != 0 then none
    else if 0 ≤ q then some (m <<< q.toNat)
    else
      let places := (-q).toNat
      if m % (1 <<< places) = 0 then some (m >>> places) else none
  | _ => none

end Roteiro.Decimal
