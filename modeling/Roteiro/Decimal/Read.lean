import Roteiro.Decimal.Binary

/-!
Reading decimals. A decimal is an optional sign, digits with an optional point among them, and an
optional power of ten; infinity and not-a-number are spelled out in any case. The result is the
nearest double.
-/

namespace Roteiro.Decimal

/-- The value of a run of decimal digits. -/
def digitsValue (cs : List Char) : Nat :=
  cs.foldl (fun n c => n * 10 + (c.toNat - '0'.toNat)) 0

/-- The largest power of ten looked at; beyond it on either side a number of the given digits is
infinite or zero. -/
def exponentLimit : Nat := 400

/-- The double nearest to `± digits * 10 ^ exponent`, where `digits` has `places` decimal digits. -/
def ofDecimal (negative : Bool) (digits places : Nat) (exponent : Int) : Float :=
  if digits = 0 then ofMagnitudeBits negative 0
  else if (exponentLimit : Int) < exponent + places then ofMagnitudeBits negative infinityBits
  else if exponent + places < -(exponentLimit : Int) then ofMagnitudeBits negative 0
  else if 0 ≤ exponent then ofRatio negative (digits * Nat.pow 10 exponent.toNat) 1
  else ofRatio negative digits (Nat.pow 10 (-exponent).toNat)

/-- Takes a sign off the front; `true` for minus. -/
def splitSign : List Char → Bool × List Char
  | '-' :: cs => (true, cs)
  | '+' :: cs => (false, cs)
  | cs => (false, cs)

/-- The power of ten at the end of a decimal, zero if nothing is left. -/
def exponentPart? : List Char → Option Int
  | [] => some 0
  | c :: cs =>
    if c = 'e' ∨ c = 'E' then
      let (negative, digits) := splitSign cs
      if digits.isEmpty || !digits.all Char.isDigit then none
      else
        let e : Int := digitsValue digits
        some (if negative then -e else e)
    else none

/-- The digits before and after the point, and what follows them. -/
def splitPoint (cs : List Char) : List Char × List Char × List Char :=
  let whole := cs.takeWhile Char.isDigit
  match cs.dropWhile Char.isDigit with
  | '.' :: rest => (whole, rest.takeWhile Char.isDigit, rest.dropWhile Char.isDigit)
  | rest => (whole, [], rest)

/-- A number in digits, without its sign. -/
def unsigned? (negative : Bool) (cs : List Char) : Option Float :=
  let (whole, fraction, rest) := splitPoint cs
  let digits := whole ++ fraction
  if digits.isEmpty then none
  else (exponentPart? rest).map fun e =>
    ofDecimal negative (digitsValue digits) (digits.dropWhile (· = '0')).length
      (e - fraction.length)

/-- The double written by the characters, `none` if they are no decimal. -/
def read? (cs : List Char) : Option Float :=
  let (negative, body) := splitSign cs
  let word := String.ofList (body.map Char.toLower)
  if word = "inf" ∨ word = "infinity" then some (ofMagnitudeBits negative infinityBits)
  else if word = "nan" then some (ofMagnitudeBits negative (infinityBits + 1 <<< 51))
  else unsigned? negative body

end Roteiro.Decimal
