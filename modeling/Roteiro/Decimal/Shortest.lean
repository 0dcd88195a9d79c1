import Roteiro.Decimal.Binary

/-!
The shortest decimal of a double: the fewest digits that read back to the same number and, among
those, the nearest to it. The numbers that read back to `m * 2 ^ q` form an interval around it, so
the search goes through the decimal grids, coarsest first, and tests on each the two neighbours of
the number. All arithmetic is exact.
-/

namespace Roteiro.Decimal

/-- The number `digits * 10 ^ exponent`. -/
structure Digits where
  digits : Nat
  exponent : Int
  deriving Repr, DecidableEq

/-- The numbers that round to one double, in units of `1 / den`: from `low` to `high` around
`value`, the two ends included when `closed`. -/
structure Rounding where
  low : Nat
  value : Nat
  high : Nat
  den : Nat
  closed : Bool

/-- The numbers that round to `m * 2 ^ q`. Below a power of two the doubles stand twice as dense, so
there the lower half of the interval is half as wide. -/
def Rounding.of (m : Nat) (q : Int) : Rounding :=
  let (up, down) := twoPow (q - 2)
  let below := if m = 1 <<< 52 ∧ -1074 < q then 1 else 2
  { low := (4 * m - below) * up
    value := 4 * m * up
    high := (4 * m + 2) * up
    den := down
    closed := m % 2 = 0 }

/-- Whether `c / scale` lies in the interval. -/
def Rounding.admits (r : Rounding) (c scale : Nat) : Bool :=
  let c := c * r.den
  let low := r.low * scale
  let high := r.high * scale
  if r.closed then low ≤ c && c ≤ high else low < c && c < high

/-- The power of ten of a grid, as numerator and denominator. -/
def tenPow (k : Int) : Nat × Nat :=
  if 0 ≤ k then (Nat.pow 10 k.toNat, 1) else (1, Nat.pow 10 (-k).toNat)

/-- The point of the grid `10 ^ k` that lies in the interval, the nearer one to the value if both of
its neighbours do, and the upper one if they are equally near. -/
def Rounding.onGrid (r : Rounding) (k : Int) : Option Nat :=
  let (up, down) := tenPow k
  let c := r.value * down / (r.den * up)
  let lowHit := r.admits (c * up) down
  let highHit := r.admits ((c + 1) * up) down
  let lowIsNearer := 2 * (r.value * down) < (2 * c + 1) * (r.den * up)
  if lowHit && (lowIsNearer || !highHit) then some c
  else if highHit then some (c + 1)
  else none

/-- The number of decimal digits of `n`. -/
def digitCount (n : Nat) : Nat :=
  (Nat.toDigits 10 n).length

/-- How often `n` must be multiplied by ten to reach `d`, tried at most `fuel` times. -/
def tensToReach (d : Nat) : Nat → Nat → Nat
  | 0, _ => 0
  | fuel + 1, n => if d ≤ n then 0 else tensToReach d fuel (n * 10) + 1

/-- The exponent of the leading decimal digit of `num / den`; the least double needs 324 tens. -/
def leadingExponent (num den : Nat) : Int :=
  if den ≤ num then (digitCount (num / den) : Int) - 1
  else -(tensToReach den 400 num : Int)

/-- The digits without trailing zeros, each zero dropped raising the exponent. -/
def stripZeros : Nat → Nat → Int → Digits
  | 0, d, k => ⟨d, k⟩
  | fuel + 1, d, k => if d % 10 = 0 then stripZeros fuel (d / 10) (k + 1) else ⟨d, k⟩

/-- The first grid from `10 ^ k` downwards, of at most `fuel`, with a point in the interval. -/
def Rounding.search (r : Rounding) : Nat → Int → Digits
  | 0, k => ⟨(r.onGrid k).getD 0, k⟩
  | fuel + 1, k =>
    match r.onGrid k with
    | some d => stripZeros (digitCount d) d k
    | none => r.search fuel (k - 1)

/-- The shortest decimal of the positive double `m * 2 ^ q`. Seventeen digits always suffice. -/
def shortest (m : Nat) (q : Int) : Digits :=
  let r := Rounding.of m q
  r.search 17 (leadingExponent r.value r.den)

end Roteiro.Decimal
