import Mathlib.Data.List.Nodup
import Mathlib.Data.List.Perm.Subperm
import Roteiro.Value.Ledger

/-!
Ledgers as lists. The nodes of a ledger are linked both ways along one list of slots, each slot with
its key; the other slots are vacant, and each of them is free once (`Ledger.Holds`). Appending a key
puts it at the end of the list, in a slot that was vacant, and taking out a slot takes it out of the
list (`Ledger.Holds.insert`, `Ledger.Holds.remove`). What is read off a ledger is read off its list.
-/

namespace Roteiro.Ledger

/-- Slots and their keys in order. -/
abbrev Chain := List (Nat × String)

/-- The slots of a chain. -/
def Chain.slots (chain : Chain) : List Nat := chain.map Prod.fst

/-- The keys of a chain. -/
def Chain.keys (chain : Chain) : List String := chain.map Prod.snd

/-- The first slot of a chain, or else what comes after it. -/
def Chain.first (stop : Option Nat) : Chain → Option Nat
  | [] => stop
  | (s, _) :: _ => some s

/-- The last slot of a chain, or else what comes before it. -/
def Chain.last (start : Option Nat) : Chain → Option Nat
  | [] => start
  | (s, _) :: rest => Chain.last (some s) rest

/-- The nodes of a chain are linked both ways, from what comes before it to what comes after it. -/
def Linked (node? : Nat → Option LedgerNode) (stop : Option Nat) : Option Nat → Chain → Prop
  | _, [] => True
  | start, (s, k) :: rest =>
    node? s = some ⟨k, start, Chain.first stop rest⟩ ∧ Linked node? stop (some s) rest

/-! ### chains -/

namespace Chain

theorem first_append (stop : Option Nat) (a b : Chain) :
    first stop (a ++ b) = first (first stop b) a := by
  cases a with
  | nil => rfl
  | cons e a => rfl

theorem last_append (start : Option Nat) (a b : Chain) :
    last start (a ++ b) = last (last start a) b := by
  induction a generalizing start with
  | nil => rfl
  | cons e a ih => exact ih (some e.1)

theorem slots_append (a b : Chain) : slots (a ++ b) = slots a ++ slots b := List.map_append

/-- The last slot of a chain that is not empty is one of its slots. -/
theorem last_mem (start : Option Nat) {e : Nat × String} {rest : Chain} {t : Nat}
    (h : last start (e :: rest) = some t) : t ∈ slots (e :: rest) := by
  induction rest generalizing start e with
  | nil =>
    obtain rfl : e.1 = t := Option.some.inj h
    exact List.mem_cons_self
  | cons e' rest ih => exact List.mem_cons_of_mem _ (ih (some e.1) h)

theorem mem_of_last {chain : Chain} {t : Nat} (h : last none chain = some t) : t ∈ slots chain := by
  cases chain with
  | nil => cases h
  | cons e rest => exact last_mem none h

theorem last_cons_isSome (start : Option Nat) (e : Nat × String) (rest : Chain) :
    ∃ t, last start (e :: rest) = some t := by
  induction rest generalizing start e with
  | nil => exact ⟨e.1, rfl⟩
  | cons e' rest ih => exact ih (some e.1) e'

theorem mem_of_first {chain : Chain} {t : Nat} (h : first none chain = some t) :
    t ∈ slots chain := by
  cases chain with
  | nil => cases h
  | cons e rest =>
    obtain rfl : e.1 = t := Option.some.inj h
    exact List.mem_cons_self

/-- What comes after a chain matters to its first slot only if the chain is empty. -/
theorem first_eq_ite (stop stop' : Option Nat) (chain : Chain) :
    first stop chain = if (last none chain).isSome then first stop' chain else stop := by
  cases chain with
  | nil => rfl
  | cons e rest =>
    obtain ⟨t, ht⟩ := last_cons_isSome none e rest
    rw [ht]
    rfl

/-- What comes before a chain matters to its last slot only if the chain is empty. -/
theorem last_eq_ite (start start' : Option Nat) (chain : Chain) :
    last start chain = if (first none chain).isSome then last start' chain else start := by
  cases chain with
  | nil => rfl
  | cons e rest => rfl

theorem mem_slots_insert {a b : Chain} {slot s : Nat} {key : String} :
    s ∈ slots (a ++ (slot, key) :: b) ↔ s ∈ slots (a ++ b) ∨ slot = s := by
  have here : s ∈ slots ((slot, key) :: b) ↔ s = slot ∨ s ∈ slots b := List.mem_cons
  rw [slots_append, slots_append, List.mem_append, List.mem_append, here, or_comm (a := s = slot),
    or_assoc, eq_comm]

end Chain

/-! ### links -/

namespace Linked

variable {node? node?' : Nat → Option LedgerNode} {start stop : Option Nat}

theorem append {a b : Chain} : Linked node? stop start (a ++ b) ↔
    Linked node? (Chain.first stop b) start a ∧ Linked node? stop (Chain.last start a) b := by
  induction a generalizing start with
  | nil => exact ⟨fun h => ⟨trivial, h⟩, fun h => h.2⟩
  | cons e a ih =>
    obtain ⟨s, k⟩ := e
    change (node? s = some ⟨k, start, Chain.first stop (a ++ b)⟩ ∧
        Linked node? stop (some s) (a ++ b)) ↔
      (node? s = some ⟨k, start, Chain.first (Chain.first stop b) a⟩ ∧ _) ∧ _
    rw [Chain.first_append, ih, and_assoc]
    rfl

/-- Links that are not touched stay. -/
theorem congr {chain : Chain} (h : Linked node? stop start chain)
    (same : ∀ s ∈ chain.slots, node?' s = node? s) : Linked node?' stop start chain := by
  induction chain generalizing start with
  | nil => trivial
  | cons e rest ih =>
    refine ⟨?_, ih h.2 fun s hs => same s (List.mem_cons_of_mem _ hs)⟩
    rw [same e.1 List.mem_cons_self]
    exact h.1

/-- A chain whose last node gets another successor. -/
theorem relinkNext {stop' : Option Nat} {chain : Chain} (h : Linked node? stop start chain)
    (nodup : chain.slots.Nodup)
    (changed : ∀ s ∈ chain.slots, node?' s =
      if Chain.last none chain = some s then (node? s).map fun n => { n with next := stop' }
      else node? s) : Linked node?' stop' start chain := by
  induction chain generalizing start with
  | nil => trivial
  | cons e rest ih =>
    obtain ⟨s, k⟩ := e
    have here := changed s List.mem_cons_self
    obtain ⟨fresh, nodup⟩ := List.nodup_cons.1 nodup
    cases rest with
    | nil =>
      have last : Chain.last none [(s, k)] = some s := rfl
      rw [if_pos last, h.1] at here
      exact ⟨here, trivial⟩
    | cons e' rest =>
      -- The last slot is one of the rest, and not this one.
      have other : Chain.last none ((s, k) :: e' :: rest) ≠ some s :=
        fun hl => fresh (Chain.last_mem (some s) hl)
      rw [if_neg other, h.1] at here
      exact ⟨here, ih h.2 nodup fun t ht => changed t (List.mem_cons_of_mem _ ht)⟩

/-- A chain whose first node gets another predecessor. -/
theorem relinkPrevious {start' : Option Nat} {chain : Chain} (h : Linked node? stop start chain)
    (nodup : chain.slots.Nodup)
    (changed : ∀ s ∈ chain.slots, node?' s =
      if Chain.first none chain = some s then (node? s).map fun n => { n with previous := start' }
      else node? s) : Linked node?' stop start' chain := by
  cases chain with
  | nil => trivial
  | cons e rest =>
    obtain ⟨s, k⟩ := e
    have here := changed s List.mem_cons_self
    obtain ⟨fresh, -⟩ := List.nodup_cons.1 nodup
    have first : Chain.first none ((s, k) :: rest) = some s := rfl
    rw [if_pos first, h.1] at here
    refine ⟨here, h.2.congr fun t ht => ?_⟩
    have other : Chain.first none ((s, k) :: rest) ≠ some t := by
      intro hf
      obtain rfl : s = t := Option.some.inj hf
      exact fresh ht
    rw [changed t (List.mem_cons_of_mem _ ht), if_neg other]

/-- Every slot of a linked chain has a node. -/
theorem node_of_mem {chain : Chain} (h : Linked node? stop start chain) {s : Nat}
    (hs : s ∈ chain.slots) : ∃ n, node? s = some n := by
  induction chain generalizing start with
  | nil => cases hs
  | cons e rest ih =>
    rcases List.mem_cons.1 hs with rfl | hs
    · exact ⟨_, h.1⟩
    · exact ih h.2 hs

end Linked

/-! ### slots -/

/-- The slots after the node in one of them was changed, if there is such a slot. -/
def relink (slots : Array (Option LedgerNode)) (slot : Option Nat) (f : LedgerNode → LedgerNode) :
    Array (Option LedgerNode) :=
  match slot with
  | some i => modifyNode slots i f
  | none => slots

theorem join_relink (slots : Array (Option LedgerNode)) (slot : Option Nat)
    (f : LedgerNode → LedgerNode) (t : Nat) :
    (relink slots slot f)[t]?.join =
      if slot = some t then slots[t]?.join.map f else slots[t]?.join := by
  cases slot with
  | none => rfl
  | some i =>
    unfold relink modifyNode
    rw [Array.getElem?_modify]
    by_cases hi : i = t
    · rw [if_pos hi, if_pos (congrArg some hi)]
      cases slots[t]? with
      | none => rfl
      | some n => rfl
    · rw [if_neg hi, if_neg fun heq => hi (Option.some.inj heq)]

theorem size_relink (slots : Array (Option LedgerNode)) (slot : Option Nat)
    (f : LedgerNode → LedgerNode) : (relink slots slot f).size = slots.size := by
  cases slot with
  | none => rfl
  | some i => exact Array.size_modify

theorem lt_size_of_node {l : Ledger} {slot : Nat} {node : LedgerNode}
    (h : l.node? slot = some node) : slot < l.slots.size := by
  by_contra hge
  unfold node? at h
  rw [Array.getElem?_eq_none (Nat.le_of_not_lt hge)] at h
  cases h

/-- The slots after a node was put into one of them, or into a new one. -/
def place (slots : Array (Option LedgerNode)) (slot : Nat) (node : LedgerNode) :
    Array (Option LedgerNode) :=
  if slot < slots.size then slots.setIfInBounds slot (some node) else slots.push (some node)

theorem join_place {slots : Array (Option LedgerNode)} {slot : Nat} (h : slot ≤ slots.size)
    (node : LedgerNode) (t : Nat) :
    (place slots slot node)[t]?.join = if slot = t then some node else slots[t]?.join := by
  unfold place
  split
  · next hlt =>
    rw [Array.getElem?_setIfInBounds]
    split
    · next heq =>
      subst heq
      rfl
    · rfl
  · next hge =>
    obtain rfl : slot = slots.size := by omega
    rw [Array.getElem?_push]
    by_cases ht : slots.size = t
    · rw [if_pos ht, if_pos ht.symm]
      rfl
    · rw [if_neg ht, if_neg (Ne.symm ht)]

theorem size_place {slots : Array (Option LedgerNode)} {slot : Nat} (h : slot ≤ slots.size)
    (node : LedgerNode) {t : Nat} (ht : slot ≠ t) :
    t < (place slots slot node).size ↔ t < slots.size := by
  unfold place
  split
  · rw [Array.size_setIfInBounds]
  · rw [Array.size_push]
    omega

/-! ### appending -/

/-- A ledger holds a chain: its nodes are linked along the chain, and all other slots are vacant,
each of them free once. -/
structure Holds (l : Ledger) (chain : Chain) : Prop where
  nodup : chain.slots.Nodup
  linked : Linked l.node? none none chain
  live : ∀ s n, l.node? s = some n → s ∈ chain.slots
  head : l.head = Chain.first none chain
  tail : l.tail = Chain.last none chain
  size : l.size = chain.length
  freeNodup : l.free.Nodup
  free : ∀ s, s ∈ l.free ↔ s < l.slots.size ∧ l.node? s = none

theorem Holds.empty : empty.Holds [] where
  nodup := List.nodup_nil
  linked := trivial
  live s n h := by cases h
  head := rfl
  tail := rfl
  size := rfl
  freeNodup := List.nodup_nil
  free s := ⟨fun h => (List.not_mem_nil h).elim, fun h => (Nat.not_lt_zero s h.1).elim⟩

namespace Holds

variable {l : Ledger} {chain : Chain} (h : l.Holds chain)

include h

theorem vacant_of_not_mem {s : Nat} (hs : s ∉ chain.slots) : l.node? s = none := by
  cases hn : l.node? s with
  | none => rfl
  | some n => exact absurd (h.live s n hn) hs

theorem not_mem_of_vacant {s : Nat} (hs : l.node? s = none) : s ∉ chain.slots := by
  intro hm
  obtain ⟨n, hn⟩ := h.linked.node_of_mem hm
  rw [hs] at hn
  cases hn

theorem vacant_iff {s : Nat} : l.node? s = none ↔ s ∉ chain.slots :=
  ⟨h.not_mem_of_vacant, h.vacant_of_not_mem⟩

/-- The slot that the next key takes is vacant, and the others that are free stay free. -/
theorem nextSlot : l.nextSlot.1 ≤ l.slots.size ∧ l.node? l.nextSlot.1 = none ∧
    l.nextSlot.2.Nodup ∧ ∀ s, s ∈ l.nextSlot.2 ↔ s ∈ l.free ∧ l.nextSlot.1 ≠ s := by
  have nodup := h.freeNodup
  have free := h.free
  unfold Ledger.nextSlot
  cases hf : l.free with
  | nil =>
    refine ⟨Nat.le_refl _, ?_, List.nodup_nil, by simp⟩
    unfold node?
    rw [Array.getElem?_eq_none (Nat.le_refl _)]
    rfl
  | cons slot rest =>
    rw [hf] at nodup free
    obtain ⟨fresh, nodup⟩ := List.nodup_cons.1 nodup
    obtain ⟨hlt, vacant⟩ := (free slot).1 List.mem_cons_self
    refine ⟨Nat.le_of_lt hlt, vacant, nodup, fun s => ?_⟩
    constructor
    · intro hs
      refine ⟨List.mem_cons_of_mem _ hs, fun heq => ?_⟩
      obtain rfl : slot = s := heq
      exact fresh hs
    · rintro ⟨hs, hne⟩
      rcases List.mem_cons.1 hs with rfl | hs
      · exact absurd rfl hne
      · exact hs

end Holds

/-- The slots after a key was appended. -/
def slotsAfter (l : Ledger) (key : String) : Array (Option LedgerNode) :=
  relink (place l.slots l.nextSlot.1 ⟨key, l.tail, none⟩) l.tail
    fun n => { n with next := some l.nextSlot.1 }

theorem insert_eq (l : Ledger) (key : String) :
    l.insert key = (l.nextSlot.1,
      { slots := l.slotsAfter key, free := l.nextSlot.2,
        head := if l.tail.isSome then l.head else some l.nextSlot.1,
        tail := some l.nextSlot.1, size := l.size + 1 }) := by
  unfold insert slotsAfter
  cases l.tail with
  | none => rfl
  | some tail => rfl

theorem join_slotsAfter {l : Ledger} (key : String) (hs : l.nextSlot.1 ≤ l.slots.size)
    (hne : l.tail ≠ some l.nextSlot.1) (t : Nat) :
    (l.slotsAfter key)[t]?.join =
      if l.nextSlot.1 = t then some ⟨key, l.tail, none⟩
      else if l.tail = some t then (l.node? t).map fun n => { n with next := some l.nextSlot.1 }
      else l.node? t := by
  unfold slotsAfter
  rw [join_relink, join_place hs]
  by_cases hslot : l.nextSlot.1 = t
  · subst hslot
    rw [if_neg hne, if_pos rfl, if_pos rfl]
  · rw [if_neg hslot, if_neg hslot]
    rfl

/-- Only the slot of the new key is taken. -/
theorem vacant_slotsAfter {l : Ledger} (key : String) (hs : l.nextSlot.1 ≤ l.slots.size)
    (hne : l.tail ≠ some l.nextSlot.1) (t : Nat) :
    (l.slotsAfter key)[t]?.join = none ↔ l.node? t = none ∧ l.nextSlot.1 ≠ t := by
  rw [join_slotsAfter key hs hne]
  by_cases taken : l.nextSlot.1 = t
  · rw [if_pos taken]
    exact ⟨nofun, fun h => absurd taken h.2⟩
  · rw [if_neg taken, and_iff_left taken]
    split
    · exact Option.map_eq_none_iff
    · exact Iff.rfl

theorem size_slotsAfter {l : Ledger} (key : String) (hs : l.nextSlot.1 ≤ l.slots.size) {t : Nat}
    (ht : l.nextSlot.1 ≠ t) : t < (l.slotsAfter key).size ↔ t < l.slots.size := by
  unfold slotsAfter
  rw [size_relink]
  exact size_place hs _ ht

namespace Holds

variable {l : Ledger} {chain : Chain} (h : l.Holds chain) (key : String)

include h

theorem nextSlot_not_mem : l.nextSlot.1 ∉ chain.slots :=
  h.not_mem_of_vacant h.nextSlot.2.1

theorem tail_ne_nextSlot : l.tail ≠ some l.nextSlot.1 := by
  rw [h.tail]
  exact fun last => h.nextSlot_not_mem (Chain.mem_of_last last)

/-- The last node gets the new one as its successor, and the others stay. -/
theorem linked_slotsAfter :
    Linked (fun t => (l.slotsAfter key)[t]?.join) none none (chain ++ [(l.nextSlot.1, key)]) := by
  have node := join_slotsAfter key h.nextSlot.1 h.tail_ne_nextSlot
  rw [h.tail] at node
  refine Linked.append.2 ⟨h.linked.relinkNext h.nodup fun s hs => ?_, ?_, trivial⟩
  · have other : l.nextSlot.1 ≠ s := fun heq => h.nextSlot_not_mem (heq ▸ hs)
    exact (node s).trans (if_neg other)
  · exact (node l.nextSlot.1).trans (if_pos rfl)

/-- **To append a key puts it at the end of the chain, in a slot that was vacant.** -/
theorem insert : (l.insert key).1 ∉ chain.slots ∧
    (l.insert key).2.Holds (chain ++ [((l.insert key).1, key)]) := by
  obtain ⟨hs, -, freeNodup, free⟩ := h.nextSlot
  have vacant := vacant_slotsAfter key hs h.tail_ne_nextSlot
  rw [l.insert_eq]
  refine ⟨h.nextSlot_not_mem, ?_⟩
  constructor
  case linked => exact h.linked_slotsAfter key
  case freeNodup => exact freeNodup
  case nodup =>
    rw [Chain.slots_append]
    refine List.nodup_append.2 ⟨h.nodup, List.nodup_singleton _, fun a ha b hb => ?_⟩
    rw [List.mem_singleton.1 hb]
    exact fun heq => h.nextSlot_not_mem (heq ▸ ha)
  case live =>
    intro s n hn
    by_contra off
    rw [Chain.mem_slots_insert, List.append_nil, not_or, ← h.vacant_iff, ← vacant] at off
    cases hn.symm.trans off
  case head =>
    dsimp only
    rw [h.tail, h.head, Chain.first_append]
    exact (Chain.first_eq_ite (some l.nextSlot.1) none chain).symm
  case tail =>
    rw [Chain.last_append]
    rfl
  case size =>
    dsimp only
    rw [h.size, List.length_append]
    rfl
  case free =>
    intro s
    change s ∈ l.nextSlot.2 ↔ s < (l.slotsAfter key).size ∧ (l.slotsAfter key)[s]?.join = none
    rw [free, h.free, vacant, ← and_assoc]
    exact and_congr_left fun other => and_congr_left' (size_slotsAfter key hs other).symm

end Holds

/-! ### taking out -/

/-- The slots after the node in one of them was taken out. -/
def slotsWithout (l : Ledger) (slot : Nat) (node : LedgerNode) : Array (Option LedgerNode) :=
  relink
    (relink (l.slots.setIfInBounds slot none) node.previous fun n => { n with next := node.next })
    node.next fun n => { n with previous := node.previous }

theorem remove_eq {l : Ledger} {slot : Nat} {node : LedgerNode} (h : l.node? slot = some node) :
    l.remove slot = (some node.key,
      { slots := l.slotsWithout slot node, free := slot :: l.free,
        head := if node.previous.isSome then l.head else node.next,
        tail := if node.next.isSome then l.tail else node.previous, size := l.size - 1 }) := by
  obtain ⟨key, previous, next⟩ := node
  unfold remove slotsWithout
  rw [h]
  cases previous with
  | none =>
    cases next with
    | none => rfl
    | some s => rfl
  | some p =>
    cases next with
    | none => rfl
    | some s => rfl

theorem join_slotsWithout (l : Ledger) (slot : Nat) (node : LedgerNode) {t : Nat} (ht : slot ≠ t) :
    (l.slotsWithout slot node)[t]?.join =
      if node.next = some t then
        (if node.previous = some t then (l.node? t).map fun n => { n with next := node.next }
          else l.node? t).map fun n => { n with previous := node.previous }
      else if node.previous = some t then (l.node? t).map fun n => { n with next := node.next }
      else l.node? t := by
  unfold slotsWithout
  rw [join_relink, join_relink, Array.getElem?_setIfInBounds_ne ht]
  rfl

theorem join_slotsWithout_self (l : Ledger) (slot : Nat) (node : LedgerNode) :
    (l.slotsWithout slot node)[slot]?.join = none := by
  have vacant : (l.slots.setIfInBounds slot none)[slot]?.join = none := by
    rw [Array.getElem?_setIfInBounds, if_pos rfl]
    split
    · rfl
    · rfl
  unfold slotsWithout
  rw [join_relink, join_relink, vacant]
  split
  · split
    · rfl
    · rfl
  · split
    · rfl
    · rfl

/-- Only the slot that is taken out becomes vacant. -/
theorem vacant_slotsWithout (l : Ledger) (slot : Nat) (node : LedgerNode) (t : Nat) :
    (l.slotsWithout slot node)[t]?.join = none ↔ l.node? t = none ∨ slot = t := by
  by_cases ht : slot = t
  · subst ht
    exact iff_of_true (join_slotsWithout_self l slot node) (.inr rfl)
  · rw [or_iff_left ht, join_slotsWithout l slot node ht]
    split
    · split
      · rw [Option.map_eq_none_iff, Option.map_eq_none_iff]
      · rw [Option.map_eq_none_iff]
    · split
      · rw [Option.map_eq_none_iff]
      · exact Iff.rfl

theorem size_slotsWithout (l : Ledger) (slot : Nat) (node : LedgerNode) :
    (l.slotsWithout slot node).size = l.slots.size := by
  unfold slotsWithout
  rw [size_relink, size_relink, Array.size_setIfInBounds]

namespace Holds

variable {l : Ledger} {a b : Chain} {slot : Nat} {key : String}
  (h : l.Holds (a ++ (slot, key) :: b))

include h

/-- The node in a slot of the chain. -/
theorem node : l.node? slot = some ⟨key, Chain.last none a, Chain.first none b⟩ :=
  (Linked.append.1 h.linked).2.1

/-- What comes before the slot gets a new successor, and what comes after it a new predecessor. -/
theorem linked_slotsWithout :
    Linked (fun t => (l.slotsWithout slot ⟨key, Chain.last none a, Chain.first none b⟩)[t]?.join)
      none none (a ++ b) := by
  have nodup := h.nodup
  rw [Chain.slots_append] at nodup
  obtain ⟨nodupA, nodupB, apart⟩ := List.nodup_append.1 nodup
  obtain ⟨freshB, nodupB⟩ := List.nodup_cons.1 nodupB
  have disjoint : ∀ t ∈ a.slots, t ∉ b.slots :=
    fun t ha hb => apart t ha t (List.mem_cons_of_mem _ hb) rfl
  obtain ⟨linkedA, -, linkedB⟩ := Linked.append.1 h.linked
  refine Linked.append.2 ⟨linkedA.relinkNext nodupA fun t ht => ?_,
    linkedB.relinkPrevious nodupB fun t ht => ?_⟩
  · have other : slot ≠ t := (apart t ht slot List.mem_cons_self).symm
    have notNext : Chain.first none b ≠ some t := fun hf => disjoint t ht (Chain.mem_of_first hf)
    exact (join_slotsWithout l slot _ other).trans (if_neg notNext)
  · have other : slot ≠ t := fun heq => freshB (heq ▸ ht)
    have notPrevious : Chain.last none a ≠ some t :=
      fun hl => disjoint t (Chain.mem_of_last hl) ht
    have changed :=
      join_slotsWithout l slot ⟨key, Chain.last none a, Chain.first none b⟩ other
    rw [if_neg notPrevious] at changed
    exact changed

/-- **To take out a slot takes it out of the chain and keeps the order of the others.** -/
theorem remove : (l.remove slot).1 = some key ∧ (l.remove slot).2.Holds (a ++ b) := by
  have vacant := vacant_slotsWithout l slot ⟨key, Chain.last none a, Chain.first none b⟩
  rw [remove_eq h.node]
  refine ⟨rfl, ?_⟩
  constructor
  case linked => exact h.linked_slotsWithout
  case nodup =>
    have shorter : (a ++ b).Sublist (a ++ (slot, key) :: b) :=
      List.Sublist.append_left (List.sublist_cons_self _ _) a
    exact h.nodup.sublist (shorter.map Prod.fst)
  case live =>
    intro s n hn
    by_contra off
    have gone : l.node? s = none ∨ slot = s := by
      by_cases here : slot = s
      · exact .inr here
      · refine .inl (h.vacant_of_not_mem ?_)
        rw [Chain.mem_slots_insert]
        exact not_or.2 ⟨off, here⟩
    cases hn.symm.trans ((vacant s).2 gone)
  case head =>
    dsimp only
    rw [h.head, Chain.first_append, Chain.first_append]
    exact (Chain.first_eq_ite (Chain.first none b) (some slot) a).symm
  case tail =>
    dsimp only
    rw [h.tail, Chain.last_append, Chain.last_append]
    exact (Chain.last_eq_ite (Chain.last none a) (some slot) b).symm
  case size =>
    dsimp only
    rw [h.size, List.length_append, List.length_append, List.length_cons]
    rfl
  case freeNodup =>
    refine List.nodup_cons.2 ⟨fun free => ?_, h.freeNodup⟩
    cases h.node.symm.trans ((h.free slot).1 free).2
  case free =>
    intro s
    change s ∈ slot :: l.free ↔ s < (l.slotsWithout slot _).size ∧
      (l.slotsWithout slot _)[s]?.join = none
    rw [List.mem_cons, h.free, size_slotsWithout, vacant]
    constructor
    · rintro (rfl | ⟨inside, empty⟩)
      · exact ⟨lt_size_of_node h.node, .inr rfl⟩
      · exact ⟨inside, .inl empty⟩
    · rintro ⟨inside, empty | rfl⟩
      · exact .inr ⟨inside, empty⟩
      · exact .inl rfl

end Holds

/-! ### reading -/

/-- A chain is read by following its links, with fuel for all its keys. -/
theorem keysFrom_of_linked {l : Ledger} {start : Option Nat} {chain : Chain}
    (h : Linked l.node? none start chain) {fuel : Nat} (hf : chain.length ≤ fuel) :
    l.keysFrom fuel (Chain.first none chain) = chain.keys := by
  induction chain generalizing start fuel with
  | nil =>
    cases fuel with
    | zero => rfl
    | succ fuel => rfl
  | cons e rest ih =>
    obtain ⟨s, k⟩ := e
    cases fuel with
    | zero => exact absurd hf (Nat.not_succ_le_zero _)
    | succ fuel =>
      have node : (Chain.first none ((s, k) :: rest)).bind l.node? =
          some ⟨k, start, Chain.first none rest⟩ := h.1
      unfold keysFrom
      rw [node]
      exact congrArg (k :: ·) (ih h.2 (Nat.le_of_succ_le_succ hf))

namespace Holds

variable {l : Ledger} {chain : Chain}

/-- No slot stands twice in the chain, so it is no longer than there are slots. -/
theorem length_le (h : l.Holds chain) : chain.length ≤ l.slots.size := by
  have within : chain.slots ⊆ List.range l.slots.size := by
    intro s hs
    obtain ⟨n, hn⟩ := h.linked.node_of_mem hs
    exact List.mem_range.2 (lt_size_of_node hn)
  have := (List.Nodup.subperm h.nodup within).length_le
  rwa [Chain.slots, List.length_map, List.length_range] at this

theorem keys (h : l.Holds chain) : l.keys = chain.keys := by
  unfold Ledger.keys
  rw [h.head]
  exact keysFrom_of_linked h.linked h.length_le

theorem keyAt? {a b : Chain} {slot : Nat} {key : String} (h : l.Holds (a ++ (slot, key) :: b)) :
    l.keyAt? slot = some key := by
  unfold Ledger.keyAt?
  rw [h.node]
  rfl

/-- What the first slot of the rest of a chain leads to is the first key of the rest. -/
theorem first_rest {a b : Chain} (h : l.Holds (a ++ b)) :
    (Chain.first none b).bind l.keyAt? = b.keys.head? := by
  cases b with
  | nil => rfl
  | cons e rest => exact h.keyAt?

theorem first? (h : l.Holds chain) : l.first? = chain.keys.head? := by
  unfold Ledger.first?
  rw [h.head]
  exact Holds.first_rest (a := []) h

theorem nextOf? {a b : Chain} {slot : Nat} {key : String} (h : l.Holds (a ++ (slot, key) :: b)) :
    l.nextOf? slot = b.keys.head? := by
  unfold Ledger.nextOf?
  rw [h.node]
  refine Holds.first_rest (a := a ++ [(slot, key)]) ?_
  rw [List.append_assoc]
  exact h

/-- A key stands in a slot exactly if the chain says so. -/
theorem keyAt?_iff (h : l.Holds chain) {slot : Nat} {key : String} :
    l.keyAt? slot = some key ↔ (slot, key) ∈ chain := by
  constructor
  · intro hk
    obtain ⟨n, hn, -⟩ := Option.map_eq_some_iff.1 hk
    obtain ⟨e, he, rfl⟩ := List.mem_map.1 (h.live slot n hn)
    obtain ⟨a, b, rfl⟩ := List.append_of_mem he
    rw [Holds.keyAt? h] at hk
    obtain rfl : e.2 = key := Option.some.inj hk
    exact he
  · intro he
    obtain ⟨a, b, rfl⟩ := List.append_of_mem he
    exact h.keyAt?

end Holds

end Roteiro.Ledger
