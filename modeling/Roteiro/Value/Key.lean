import Roteiro.Decimal.Read
import Roteiro.Decimal.Remainder
import Roteiro.Text.Blank
import Roteiro.Value.Printer

/-!
Values as keys: the position in an array, and the key of a dictionary.
-/

namespace Roteiro

open Decimal Text

/-- The largest position. -/
def maxIndex : Nat := UInt64.size - 1

/-- The position that a value names: a whole number that is not negative, or a string that writes
one. A number too large for a position names the last one. -/
def Value.index? : Value → Option Nat
  | number v => (toNat? v).map (min maxIndex)
  | string s => ((read? (trimBlanks s.toList)).bind toNat?).map (min maxIndex)
  | _ => none

/-- The dictionary key that a value names: a string stands for itself, any other value for its
text. -/
def Heap.key (h : Heap) : Value → String
  | .string s => s
  | v => h.text v

end Roteiro
