import Roteiro.Value.Basic

/-!
The items of an array. Writing null takes an item out and moves the later ones down; writing past
the end fills the gap with nulls, as long as the gap is not too wide.
-/

namespace Roteiro

/-- The items of an array. -/
abbrev Items := Array Value

namespace Items

/-- The widest gap that a write past the end may leave. -/
def maxGap : Nat := 1 <<< 20

/-- The item at an index, null past the end. -/
def item (items : Items) (index : Nat) : Value :=
  items[index]?.getD .null

/-- The items without the one at an index. -/
def removeAt (items : Items) (index : Nat) : Items :=
  items.eraseIdxIfInBounds index

/-- Writes a value at an index. -/
def write (items : Items) (index : Nat) (value : Value) : Except RuntimeFault Items :=
  if value.isNull then .ok (items.removeAt index)
  else if index < items.size then .ok (items.setIfInBounds index value)
  else if maxGap < index - items.size then .error (.indexOutOfRange index items.size)
  else .ok ((items ++ Array.replicate (index - items.size) Value.null).push value)

end Items

end Roteiro
