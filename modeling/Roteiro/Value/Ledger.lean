/-!
Ledgers: the keys of a dictionary in the order of their insertion. The keys stand in slots that are
linked both ways, so that a key can be taken out from the middle; the slot of a removed key is used
again for a later one, the last vacated slot first.
-/

namespace Roteiro

/-- A key and its neighbours in the order. -/
structure LedgerNode where
  key : String
  previous : Option Nat
  next : Option Nat
  deriving Repr, DecidableEq

/-- Keys in the order of their insertion. -/
structure Ledger where
  slots : Array (Option LedgerNode) := #[]
  /-- The vacant slots, last vacated first. -/
  free : List Nat := []
  head : Option Nat := none
  tail : Option Nat := none
  size : Nat := 0
  deriving Repr, DecidableEq

namespace Ledger

/-- The ledger without keys. -/
def empty : Ledger := {}

/-- The node in a slot. -/
def node? (l : Ledger) (slot : Nat) : Option LedgerNode :=
  l.slots[slot]?.join

/-- Changes the node in a slot, if there is one. -/
def modifyNode (slots : Array (Option LedgerNode)) (slot : Nat)
    (f : LedgerNode → LedgerNode) : Array (Option LedgerNode) :=
  slots.modify slot (·.map f)

/-- The slot that the next key will take, and the slots that stay vacant. -/
def nextSlot (l : Ledger) : Nat × List Nat :=
  match l.free with
  | slot :: rest => (slot, rest)
  | [] => (l.slots.size, [])

/-- Appends a key and returns its slot. -/
def insert (l : Ledger) (key : String) : Nat × Ledger :=
  let (slot, free) := l.nextSlot
  let node : LedgerNode := ⟨key, l.tail, none⟩
  let slots :=
    if slot < l.slots.size then l.slots.setIfInBounds slot (some node)
    else l.slots.push (some node)
  match l.tail with
  | some tail =>
    (slot, { slots := modifyNode slots tail fun n => { n with next := some slot },
             free, head := l.head, tail := some slot, size := l.size + 1 })
  | none =>
    (slot, { slots, free, head := some slot, tail := some slot, size := l.size + 1 })

/-- Takes out the key in a slot. A slot without a key changes nothing. -/
def remove (l : Ledger) (slot : Nat) : Option String × Ledger :=
  match l.node? slot with
  | none => (none, l)
  | some node =>
    let slots := l.slots.setIfInBounds slot none
    let (slots, head) :=
      match node.previous with
      | some p => (modifyNode slots p fun n => { n with next := node.next }, l.head)
      | none => (slots, node.next)
    let (slots, tail) :=
      match node.next with
      | some s => (modifyNode slots s fun n => { n with previous := node.previous }, l.tail)
      | none => (slots, node.previous)
    (some node.key, { slots, free := slot :: l.free, head, tail, size := l.size - 1 })

/-- The key in a slot. -/
def keyAt? (l : Ledger) (slot : Nat) : Option String :=
  (l.node? slot).map LedgerNode.key

/-- The first key. -/
def first? (l : Ledger) : Option String :=
  l.head.bind l.keyAt?

/-- The key after the one in a slot. -/
def nextOf? (l : Ledger) (slot : Nat) : Option String :=
  (l.node? slot).bind fun node => node.next.bind l.keyAt?

/-- The keys met by following the links from a slot, at most `fuel` of them. -/
def keysFrom (l : Ledger) : Nat → Option Nat → List String
  | 0, _ => []
  | fuel + 1, cursor =>
    match cursor.bind l.node? with
    | some node => node.key :: keysFrom l fuel node.next
    | none => []

/-- The keys in order. No slot is met twice, so there are at most as many as slots. -/
def keys (l : Ledger) : List String :=
  l.keysFrom l.slots.size l.head

end Ledger

end Roteiro
