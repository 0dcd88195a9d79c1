import Roteiro.Value.Basic
import Roteiro.Value.Ledger
import Std.Data.TreeMap

/-!
Dictionaries: values under string keys, in the order in which the keys were first written. Writing
null takes a key out.
-/

namespace Roteiro

/-- A dictionary. Beside each value stands the slot of its key in the ledger. -/
structure Dictionary where
  entries : Std.TreeMap String (Value × Nat) := {}
  order : Ledger := {}

namespace Dictionary

/-- The dictionary without entries. -/
def empty : Dictionary := {}

/-- The number of entries. -/
def size (d : Dictionary) : Nat :=
  d.entries.size

/-- The value under a key. -/
def get? (d : Dictionary) (key : String) : Option Value :=
  d.entries[key]?.map Prod.fst

/-- The value under a key, null if there is none. -/
def get (d : Dictionary) (key : String) : Value :=
  (d.get? key).getD .null

/-- Writes a value under a key: null takes the key out, a new key comes last, and a key that is
already there keeps its place. -/
def set (d : Dictionary) (key : String) (value : Value) : Dictionary :=
  match d.entries[key]? with
  | some (_, slot) =>
    if value.isNull then
      { entries := d.entries.erase key, order := (d.order.remove slot).2 }
    else { d with entries := d.entries.insert key (value, slot) }
  | none =>
    if value.isNull then d
    else
      let (slot, order) := d.order.insert key
      { entries := d.entries.insert key (value, slot), order }

/-- The dictionary that successive writes make. -/
def ofList (entries : List (String × Value)) : Dictionary :=
  entries.foldl (fun d e => d.set e.1 e.2) empty

/-- The keys in order. -/
def keys (d : Dictionary) : List String :=
  d.order.keys

/-- The first key. -/
def first? (d : Dictionary) : Option String :=
  d.order.first?

/-- The value under a key and the key after it, if the key is there. -/
def entryAndNext? (d : Dictionary) (key : String) : Option (Value × Option String) :=
  d.entries[key]?.map fun (value, slot) => (value, d.order.nextOf? slot)

end Dictionary

end Roteiro
