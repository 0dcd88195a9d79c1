import Roteiro.Value.Dictionary
import Roteiro.Value.Items

/-!
The heap: arrays and dictionaries under addresses. Nothing is ever taken out, so an address stays
good and keeps naming the same kind of collection.
-/

namespace Roteiro

/-- A collection. -/
inductive Cell where
  | array (items : Items)
  | dictionary (entries : Dictionary)

/-- The collections of a world, oldest first. -/
abbrev Heap := Array Cell

namespace Heap

/-- Puts a collection into the heap. -/
def allocate (h : Heap) (cell : Cell) : Address × Heap :=
  (h.size, h.push cell)

/-- The items of the array at an address. -/
def items (h : Heap) (a : Address) : Items :=
  match h[a]? with
  | some (.array items) => items
  | _ => #[]

/-- The dictionary at an address. -/
def entries (h : Heap) (a : Address) : Dictionary :=
  match h[a]? with
  | some (.dictionary entries) => entries
  | _ => .empty

/-- Replaces the items of the array at an address. -/
def setItems (h : Heap) (a : Address) (items : Items) : Heap :=
  h.setIfInBounds a (.array items)

/-- Replaces the dictionary at an address. -/
def setEntries (h : Heap) (a : Address) (entries : Dictionary) : Heap :=
  h.setIfInBounds a (.dictionary entries)

end Heap

end Roteiro
