import Roteiro.Decimal.Shortest

/-!
Numbers as text. A layout says which numbers are written positionally, whether a whole number
keeps a fraction, and how the special values are spelled; the digits are always the shortest that
read back.
-/

namespace Roteiro.Decimal

/-- The decisions of a number format. -/
structure Layout where
  /-- The exponents of the leading digit for which a number is written without a power of ten. -/
  positional : Int → Bool
  /-- Whether a whole number written positionally ends in `.0`. -/
  keepsFraction : Bool
  /-- Whether a negative zero keeps its sign. -/
  signedZero : Bool
  nan : String
  infinity : String

/-- Numbers as scripts print them: always positional, whole numbers bare, one zero. -/
def Layout.plain : Layout where
  positional _ := true
  keepsFraction := false
  signedZero := false
  nan := "NaN"
  infinity := "Infinity"

/-- Numbers as dumps and token listings print them: a fraction is always shown, and a power of ten
stands from `1e16` on and below `1e-4`. -/
def Layout.dump : Layout where
  positional e := -4 ≤ e && e < 16
  keepsFraction := true
  signedZero := true
  nan := "NaN"
  infinity := "inf"

/-- A natural number in base ten. -/
def natText (n : Nat) : String :=
  String.ofList (Nat.toDigits 10 n)

/-- An integer in base ten. -/
def intText (n : Int) : String :=
  if n < 0 then "-" ++ natText n.natAbs else natText n.natAbs

/-- A run of zeros. -/
def zeros (n : Nat) : String :=
  String.ofList (List.replicate n '0')

/-- The digits with the point in its place, zeros filling what lies between. -/
def positionalText (keepsFraction : Bool) (d : Digits) : String :=
  let text := (Nat.toDigits 10 d.digits)
  if 0 ≤ d.exponent then
    String.ofList text ++ zeros d.exponent.toNat ++ (if keepsFraction then ".0" else "")
  else
    let places := (-d.exponent).toNat
    if text.length ≤ places then
      "0." ++ zeros (places - text.length) ++ String.ofList text
    else
      let whole := text.length - places
      String.ofList (text.take whole) ++ "." ++ String.ofList (text.drop whole)

/-- The exponent of the leading digit. -/
def Digits.leading (d : Digits) : Int :=
  d.exponent + digitCount d.digits - 1

/-- One digit, the point and the other digits if there are any, and the power of ten. -/
def scientificText (d : Digits) : String :=
  let text := Nat.toDigits 10 d.digits
  let fraction := if text.length ≤ 1 then "" else "." ++ String.ofList (text.drop 1)
  String.ofList (text.take 1) ++ fraction ++ "e" ++ intText d.leading

/-- The text of a finite number without its sign. -/
def Layout.finiteText (l : Layout) (m : Nat) (q : Int) : String :=
  if m = 0 then if l.keepsFraction then "0.0" else "0"
  else
    let d := shortest m q
    if l.positional d.leading then positionalText l.keepsFraction d else scientificText d

/-- The text of a number. -/
def Layout.text (l : Layout) (x : Float) : String :=
  match decode x with
  | .nan => l.nan
  | .infinite => if isNegative x then "-" ++ l.infinity else l.infinity
  | .finite m q =>
    let signed := isNegative x && (m != 0 || l.signedZero)
    if signed then "-" ++ l.finiteText m q else l.finiteText m q

end Roteiro.Decimal
