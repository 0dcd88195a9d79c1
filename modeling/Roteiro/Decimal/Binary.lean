/-!
Doubles as exact binary fractions. A finite double is `± m · 2 ^ q` with natural `m`; `decode` reads
`m` and `q` off the bits, and `ofRatio` goes the other way, rounding a ratio of naturals to the
nearest double and a tie to the even mantissa.
-/

namespace Roteiro.Decimal

/-- What the bits of a double say once the sign is taken off. -/
inductive Magnitude where
  | nan
  | infinite
  /-- The number `mantissa * 2 ^ exponent`. -/
  | finite (mantissa : Nat) (exponent : Int)

/-- Whether the sign bit is set. -/
def isNegative (x : Float) : Bool :=
  x.toBits.toNat >>> 63 == 1

/-- The magnitude of a double, with the exponent kept at its least value near zero. -/
def decode (x : Float) : Magnitude :=
  let bits := x.toBits.toNat
  let biased := (bits >>> 52) % 2048
  let field := bits % (1 <<< 52)
  if biased = 2047 then if field = 0 then .infinite else .nan
  else if biased = 0 then .finite field (-1074)
  else .finite (1 <<< 52 + field) ((biased : Int) - 1075)

/-- The bits of positive infinity. -/
def infinityBits : Nat := 2047 <<< 52

/-- The double with the given sign and the given bits below it. -/
def ofMagnitudeBits (negative : Bool) (bits : Nat) : Float :=
  Float.ofBits (UInt64.ofNat (if negative then 1 <<< 63 + bits else bits))

/-- A power of two with an integral exponent, as numerator and denominator. -/
def twoPow (q : Int) : Nat × Nat :=
  if 0 ≤ q then (1 <<< q.toNat, 1) else (1, 1 <<< (-q).toNat)

/-- `num / den` in units of `2 ^ q`, rounded to nearest and a tie to the even neighbour. -/
def roundInUnits (num den : Nat) (q : Int) : Nat :=
  let (up, down) := twoPow q
  let n := num * down
  let d := den * up
  let whole := n / d
  let twice := 2 * (n % d)
  if twice < d then whole
  else if d < twice then whole + 1
  else whole + whole % 2

/-- The exponent of the last place of the double nearest to `num / den`. -/
def lastPlace (num den : Nat) : Int :=
  let guess : Int := (num.log2 : Int) - den.log2 - 52
  let (up, down) := twoPow guess
  let q := if num * down < (den * up) <<< 52 then guess - 1 else guess
  max q (-1074)

/-- The bits of the double nearest to `num / den`, infinity when it is too large. -/
def ratioBits (num den : Nat) : Nat :=
  if num = 0 then 0
  else
    let q := lastPlace num den
    -- The leading bit of a full mantissa carries into the exponent field.
    min infinityBits ((q + 1074).toNat <<< 52 + roundInUnits num den q)

/-- The double nearest to `± num / den`. -/
def ofRatio (negative : Bool) (num den : Nat) : Float :=
  ofMagnitudeBits negative (ratioBits num den)

/-- The double nearest to `± m * 2 ^ q`. -/
def ofScaled (negative : Bool) (m : Nat) (q : Int) : Float :=
  let (up, down) := twoPow q
  ofRatio negative (m * up) down

end Roteiro.Decimal
