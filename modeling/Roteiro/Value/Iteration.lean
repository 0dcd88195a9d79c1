import Roteiro.Value.Heap

/-!
Iteration over a collection while it may change. An iteration over an array keeps the next index;
one over a dictionary keeps the next key, and ends early if that key is gone when it is reached.
-/

namespace Roteiro

/-- A place in a collection. -/
inductive Iteration where
  | array (address : Address) (index : Nat)
  | dictionary (address : Address) (next : Option String)

/-- An iteration at the start of a collection. -/
def Heap.iterate (h : Heap) : Value → Except RuntimeFault Iteration
  | .array a => .ok (.array a 0)
  | .dictionary a => .ok (.dictionary a (h.entries a).first?)
  | v => .error (.notIterable v.type)

/-- The next index or key with its value, if there is one, and the iteration after it. -/
def Heap.advance (h : Heap) : Iteration → Option (Value × Value) × Iteration
  | .array a index =>
    match (h.items a)[index]? with
    | some value => (some (.number (Float.ofNat index), value), .array a (index + 1))
    | none => (none, .array a index)
  | .dictionary a none => (none, .dictionary a none)
  | .dictionary a (some key) =>
    match (h.entries a).entryAndNext? key with
    | some (value, next) => (some (.string key, value), .dictionary a next)
    | none => (none, .dictionary a none)

end Roteiro
