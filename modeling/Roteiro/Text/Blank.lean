import Roteiro.Text.Ranges

/-!
Blank characters: those with the Unicode property White_Space. They separate tokens and are
trimmed from both ends of a command line or of a number written in a string.
-/

namespace Roteiro.Text

/-- The code points with the property White_Space. -/
def blankRanges : Ranges := [
  (0x0009, 0x000d), (0x0020, 0x0020), (0x0085, 0x0085), (0x00a0, 0x00a0), (0x1680, 0x1680),
  (0x2000, 0x200a), (0x2028, 0x2029), (0x202f, 0x202f), (0x205f, 0x205f), (0x3000, 0x3000)]

/-- A blank of any script, line ends included. -/
def isBlank (c : Char) : Bool :=
  blankRanges.contains c

/-- The characters without the blanks at either end. -/
def trimBlanks (cs : List Char) : List Char :=
  ((cs.dropWhile isBlank).reverse.dropWhile isBlank).reverse

end Roteiro.Text
