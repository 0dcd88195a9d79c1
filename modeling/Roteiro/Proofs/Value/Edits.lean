import Roteiro.Proofs.Value.Ledger

/-!
Edits of a ledger. Whatever keys are appended and whatever slots are taken out, be they live, freed,
taken again or beyond all slots, a ledger can be read as the chain that the same edits make of the
empty one: an appended key comes last, in a slot that was vacant, and a slot that is taken out
leaves the others in their order (`Ledger.refines_chain`).
-/

namespace Roteiro.Ledger

/-- A change of a ledger. -/
inductive Edit where
  | insert (key : String)
  | remove (slot : Nat)

namespace Edit

/-- The ledger after an edit. -/
def apply (l : Ledger) : Edit → Ledger
  | insert key => (l.insert key).2
  | remove slot => (l.remove slot).2

/-- The slots that an edit takes to be there: the one that it fills again, and those whose links it
changes. -/
def relied (l : Ledger) : Edit → List Nat
  | insert _ => l.free.head?.toList ++ l.tail.toList
  | remove slot =>
    match l.node? slot with
    | some node => node.previous.toList ++ node.next.toList
    | none => []

end Edit

/-- The chain of a ledger after an edit: an appended key comes last, in the slot that it was given,
and a slot that is taken out is left out. -/
def Chain.edit (l : Ledger) (chain : Chain) : Edit → Chain
  | .insert key => chain ++ [((l.insert key).1, key)]
  | .remove slot => chain.filter fun e => e.1 ≠ slot

/-- The ledger and the chain that some edits make, from first to last. -/
def edited (edits : List Edit) : Ledger × Chain :=
  edits.foldl (fun s edit => (edit.apply s.1, s.2.edit s.1 edit)) (empty, [])

/-- A ledger refines a chain: no slot stands twice in the chain, all that is read off the ledger is
read off the chain, the free slots are the vacant ones, each once, and no edit relies on a slot that
is not there. The keys are found by following the links until they end, however far one would go. -/
structure Refines (l : Ledger) (chain : Chain) : Prop where
  nodup : chain.slots.Nodup
  walk : ∀ fuel, chain.length ≤ fuel → l.keysFrom fuel l.head = chain.keys
  keys : l.keys = chain.keys
  first : l.first? = chain.keys.head?
  next : ∀ (a : Chain) (slot : Nat) (key : String) (b : Chain),
    chain = a ++ (slot, key) :: b → l.nextOf? slot = b.keys.head?
  key : ∀ slot, l.keyAt? slot = chain.lookup slot
  size : l.size = chain.length
  freeNodup : l.free.Nodup
  free : ∀ slot, slot ∈ l.free ↔ slot < l.slots.size ∧ l.keyAt? slot = none
  relied : ∀ edit : Edit, ∀ slot ∈ edit.relied l, slot < l.slots.size

/-! ### one edit -/

theorem Chain.filter_absent {chain : Chain} {slot : Nat} (absent : slot ∉ chain.slots) :
    chain.filter (fun e => e.1 ≠ slot) = chain := by
  refine List.filter_eq_self.2 fun e member => ?_
  have inside : e.1 ∈ chain.slots := List.mem_map_of_mem member
  have other : e.1 ≠ slot := fun same => absent (same ▸ inside)
  simpa using other

/-- A slot stands somewhere in a chain, or nowhere. -/
theorem Chain.split_or_absent (chain : Chain) (slot : Nat) :
    (∃ (a : Chain) (key : String) (b : Chain), chain = a ++ (slot, key) :: b) ∨
      slot ∉ chain.slots := by
  by_cases member : slot ∈ chain.slots
  · obtain ⟨⟨s, key⟩, there, rfl⟩ := List.mem_map.1 member
    obtain ⟨a, b, split⟩ := List.append_of_mem there
    exact .inl ⟨a, key, b, split⟩
  · exact .inr member

/-- A chain without one of its slots. -/
theorem Chain.filter_split {a b : Chain} {slot : Nat} {key : String}
    (nodup : (slots (a ++ (slot, key) :: b)).Nodup) :
    (a ++ (slot, key) :: b).filter (fun e => e.1 ≠ slot) = a ++ b := by
  rw [slots_append] at nodup
  obtain ⟨-, nodupB, apart⟩ := List.nodup_append.1 nodup
  have absentA : slot ∉ a.slots := fun member => apart slot member slot List.mem_cons_self rfl
  have absentB : slot ∉ b.slots := (List.nodup_cons.1 nodupB).1
  rw [List.filter_append, filter_absent absentA, List.filter_cons_of_neg (by simp),
    filter_absent absentB]

theorem remove_of_vacant {l : Ledger} {slot : Nat} (vacant : l.node? slot = none) :
    l.remove slot = (none, l) := by
  unfold remove
  rw [vacant]

namespace Holds

variable {l : Ledger} {chain : Chain} (h : l.Holds chain)

include h

/-- The key in a slot is the one that the chain has there. -/
theorem keyAt?_eq_lookup (slot : Nat) : l.keyAt? slot = chain.lookup slot := by
  cases found : chain.lookup slot with
  | some key =>
    obtain ⟨a, b, rfl, -⟩ := List.lookup_eq_some_iff.1 found
    exact h.keyAt?
  | none =>
    cases stored : l.keyAt? slot with
    | none => rfl
    | some key =>
      have member := h.keyAt?_iff.1 stored
      have := List.lookup_eq_none_iff.1 found (slot, key) member
      simp at this

/-- **To take out any slot takes it out of the chain and returns its key**, if it has one. -/
theorem remove_any (slot : Nat) :
    (l.remove slot).1 = chain.lookup slot ∧
      (l.remove slot).2.Holds (chain.filter fun e => e.1 ≠ slot) ∧
      (slot ∉ chain.slots → (l.remove slot).2 = l) := by
  rw [← h.keyAt?_eq_lookup]
  rcases chain.split_or_absent slot with ⟨a, key, b, rfl⟩ | absent
  · obtain ⟨removed, rest⟩ := h.remove
    rw [h.keyAt?, Chain.filter_split h.nodup]
    refine ⟨removed, rest, fun absent => absurd ?_ absent⟩
    rw [Chain.slots_append]
    exact List.mem_append_right _ List.mem_cons_self
  · have vacant := h.vacant_of_not_mem absent
    rw [remove_of_vacant vacant, Chain.filter_absent absent]
    refine ⟨?_, h, fun _ => rfl⟩
    unfold Ledger.keyAt?
    rw [vacant]
    rfl

/-- An edit changes the chain of a ledger as it says. -/
theorem edit (e : Edit) : (e.apply l).Holds (chain.edit l e) := by
  cases e with
  | insert key => exact (h.insert key).2
  | remove slot => exact (h.remove_any slot).2.1

/-- Every slot of the chain is there. -/
theorem lt_size {slot : Nat} (member : slot ∈ chain.slots) : slot < l.slots.size := by
  obtain ⟨node, found⟩ := h.linked.node_of_mem member
  exact lt_size_of_node found

/-- **No edit relies on a slot that is not there.** -/
theorem relied (e : Edit) : ∀ slot ∈ e.relied l, slot < l.slots.size := by
  intro s used
  cases e with
  | insert key =>
    rcases List.mem_append.1 used with free | tail
    · exact ((h.free s).1 (List.mem_of_head? (Option.mem_toList.1 free))).1
    · have last : l.tail = some s := Option.mem_toList.1 tail
      rw [h.tail] at last
      exact h.lt_size (Chain.mem_of_last last)
  | remove slot =>
    rcases chain.split_or_absent slot with ⟨a, key, b, rfl⟩ | absent
    · -- The neighbours of a slot are the last one before it and the first one after it.
      unfold Edit.relied at used
      dsimp only at used
      rw [h.node] at used
      refine h.lt_size ?_
      rw [Chain.slots_append]
      rcases List.mem_append.1 used with before | after
      · exact List.mem_append_left _ (Chain.mem_of_last (Option.mem_toList.1 before))
      · exact List.mem_append_right _
          (List.mem_cons_of_mem _ (Chain.mem_of_first (Option.mem_toList.1 after)))
    · unfold Edit.relied at used
      dsimp only at used
      rw [h.vacant_of_not_mem absent] at used
      cases used

/-- **A ledger that holds a chain refines it.** -/
theorem refines : l.Refines chain where
  nodup := h.nodup
  walk fuel enough := by
    rw [h.head]
    exact keysFrom_of_linked h.linked enough
  keys := h.keys
  first := h.first?
  next a slot key b split := by
    subst split
    exact h.nextOf?
  key := h.keyAt?_eq_lookup
  size := h.size
  freeNodup := h.freeNodup
  free slot := by
    rw [h.free]
    unfold Ledger.keyAt?
    rw [Option.map_eq_none_iff]
  relied := h.relied

end Holds

/-! ### any number of edits -/

/-- A ledger holds the chain that its edits make. -/
theorem holds_edited (edits : List Edit) : (edited edits).1.Holds (edited edits).2 := by
  unfold edited
  suffices run : ∀ s : Ledger × Chain, s.1.Holds s.2 →
      (edits.foldl (fun s edit => (edit.apply s.1, s.2.edit s.1 edit)) s).1.Holds
        (edits.foldl (fun s edit => (edit.apply s.1, s.2.edit s.1 edit)) s).2 from
    run (empty, []) .empty
  induction edits with
  | nil => exact fun s h => h
  | cons edit edits ih => exact fun s h => ih _ (h.edit edit)

/-- **Ledgers refine chains of slots.** Whatever was done to a ledger from the empty one on, it
refines the chain that the same edits make; the next key goes to the end of the chain, in a slot
that is not live; and to take out any slot at all returns the key that it has in the chain, and
takes just this slot out, or changes nothing if the slot is not live. -/
theorem refines_chain (edits : List Edit) :
    let l := (edited edits).1
    let chain := (edited edits).2
    l.Refines chain ∧
    (∀ key, (l.insert key).1 ∉ chain.slots ∧
      (l.insert key).2.Refines (chain ++ [((l.insert key).1, key)])) ∧
    ∀ slot, (l.remove slot).1 = chain.lookup slot ∧
      (l.remove slot).2.Refines (chain.filter fun e => e.1 ≠ slot) ∧
      (slot ∉ chain.slots → (l.remove slot).2 = l) := by
  intro l chain
  have holds : l.Holds chain := holds_edited edits
  refine ⟨holds.refines, fun key => ?_, fun slot => ?_⟩
  · obtain ⟨fresh, appended⟩ := holds.insert key
    exact ⟨fresh, appended.refines⟩
  · obtain ⟨returned, rest, same⟩ := holds.remove_any slot
    exact ⟨returned, rest.refines, same⟩

end Roteiro.Ledger
