import Roteiro.Proofs.Scope.Layers

/-!
Resolution of names. A name is looked up in a context and then in its parents. Whatever is done to
contexts, a parent is older than its children (`Contexts.Reachable.ordered`), so these contexts form
a finite chain (`Contexts.Ordered.chain`), and a name resolves to its newest local in the first
context of the chain that has one (`Contexts.Chain.resolve?_eq_some_iff`).
-/

namespace Roteiro

/-! ### slots -/

namespace Context

theorem slotIn_eq_none_iff {name : String} {locals : List Local} :
    slotIn name locals = none ↔ ∀ l ∈ locals, l.name ≠ name := by
  induction locals with
  | nil => simp [slotIn]
  | cons l older ih =>
    rw [slotIn, List.forall_mem_cons]
    split
    · next same => simp [same]
    · next differs => rw [ih, and_iff_right differs]

/-- The slot of a name is that of its newest local. -/
theorem slotIn_eq_some_iff {name : String} {locals : List Local} {slot : Nat} :
    slotIn name locals = some slot ↔ ∃ newer l older, locals = newer ++ l :: older ∧
      (∀ k ∈ newer, k.name ≠ name) ∧ l.name = name ∧ older.length = slot := by
  induction locals with
  | nil => simp [slotIn]
  | cons k rest ih =>
    rw [slotIn]
    split
    · next same =>
      constructor
      · intro found
        cases found
        exact ⟨[], k, rest, rfl, List.forall_mem_nil _, same, rfl⟩
      · rintro ⟨newer, l, older, split, others, -, rfl⟩
        cases newer with
        | nil =>
          cases split
          rfl
        | cons first newer =>
          cases split
          exact absurd same (others k List.mem_cons_self)
    · next differs =>
      rw [ih]
      constructor
      · rintro ⟨newer, l, older, rfl, others, found⟩
        exact ⟨k :: newer, l, older, rfl, List.forall_mem_cons.2 ⟨differs, others⟩, found⟩
      · rintro ⟨newer, l, older, split, others, same, length⟩
        cases newer with
        | nil =>
          cases split
          exact absurd same differs
        | cons first newer =>
          cases split
          exact ⟨newer, l, older, rfl, (List.forall_mem_cons.1 others).2, same, length⟩

section

variable {c : Context} {newer older : List Local} {l : Local}
  (split : c.locals = newer ++ l :: older)

include split

/-- The local in the slot that is counted by the older ones. -/
theorem local?_of_split : c.local? older.length = some l := by
  have place : (newer ++ l :: older).length - 1 - older.length = newer.length := by
    rw [List.length_append, List.length_cons]
    omega
  unfold local?
  rw [split, if_pos (by rw [List.length_append, List.length_cons]; omega), place,
    List.getElem?_append_right (Nat.le_refl _), Nat.sub_self, List.getElem?_cons_zero]

theorem valueAt_of_split : c.valueAt older.length = l.value := by
  unfold valueAt
  rw [local?_of_split split]

/-- To write to a slot changes the value of the local in it. -/
theorem write_of_split (v : Value) :
    c.write older.length v = { c with locals := newer ++ { l with value := v } :: older } := by
  have place : (newer ++ l :: older).length - 1 - older.length = newer.length := by
    rw [List.length_append, List.length_cons]
    omega
  have modified : (newer ++ l :: older).modify newer.length (fun l => { l with value := v }) =
      newer ++ { l with value := v } :: older := by
    clear split place
    induction newer with
    | nil => rfl
    | cons first newer ih => simpa using ih
  unfold write
  rw [split, if_pos (by rw [List.length_append, List.length_cons]; omega), place, modified]

end

/-- A slot with a local in it splits the locals there. -/
theorem split_of_lt {c : Context} {slot : Nat} (filled : slot < c.locals.length) :
    ∃ newer l older, c.locals = newer ++ l :: older ∧ older.length = slot := by
  have place : c.locals.length - 1 - slot < c.locals.length := by omega
  refine ⟨c.locals.take (c.locals.length - 1 - slot), c.locals[c.locals.length - 1 - slot],
    c.locals.drop (c.locals.length - 1 - slot + 1), ?_, ?_⟩
  · rw [← List.drop_eq_getElem_cons place, List.take_append_drop]
  · rw [List.length_drop]
    omega

theorem valueAt_of_vacant {c : Context} {slot : Nat} (vacant : c.locals.length ≤ slot) :
    c.valueAt slot = .null := by
  unfold valueAt local?
  rw [if_neg (Nat.not_lt.2 vacant)]

theorem write_of_vacant {c : Context} {slot : Nat} (vacant : c.locals.length ≤ slot) (v : Value) :
    c.write slot v = c := by
  unfold write
  rw [if_neg (Nat.not_lt.2 vacant)]

end Context

namespace Contexts

/-! ### one context after the other -/

section

variable {cs : Contexts} {name : String} {n k : Nat} {i : ContextId} {b : Binding}

theorem resolveWithin_of_slot {slot : Nat} (here : (cs.context i).slot? name = some slot)
    (n : Nat) : cs.resolveWithin name (n + 1) i = some ⟨i, slot⟩ := by
  rw [resolveWithin, here]

theorem resolveWithin_of_parent {p : ContextId} (here : (cs.context i).slot? name = none)
    (above : (cs.context i).parent = some p) (n : Nat) :
    cs.resolveWithin name (n + 1) i = cs.resolveWithin name n p := by
  rw [resolveWithin, here, above]

theorem resolveWithin_of_root (here : (cs.context i).slot? name = none)
    (above : (cs.context i).parent = none) (n : Nat) : cs.resolveWithin name n i = none := by
  cases n with
  | zero => rfl
  | succ n => rw [resolveWithin, here, above]

/-- A name is resolved in the context itself, or else in its parent. -/
theorem resolveWithin_cases (found : cs.resolveWithin name (n + 1) i = some b) :
    (∃ slot, (cs.context i).slot? name = some slot ∧ b = ⟨i, slot⟩) ∨
      ∃ p, (cs.context i).slot? name = none ∧ (cs.context i).parent = some p ∧
        cs.resolveWithin name n p = some b := by
  cases here : (cs.context i).slot? name with
  | some slot =>
    rw [resolveWithin_of_slot here] at found
    cases found
    exact .inl ⟨slot, rfl, rfl⟩
  | none =>
    cases above : (cs.context i).parent with
    | none =>
      rw [resolveWithin_of_root here above] at found
      cases found
    | some p =>
      rw [resolveWithin_of_parent here above] at found
      exact .inr ⟨p, rfl, rfl, found⟩

theorem resolveWithin_mono (found : cs.resolveWithin name n i = some b) (h : n ≤ k) :
    cs.resolveWithin name k i = some b := by
  induction n generalizing i k with
  | zero => cases found
  | succ n ih =>
    obtain ⟨k, rfl⟩ : ∃ j, k = j + 1 := ⟨k - 1, by omega⟩
    obtain ⟨slot, here, rfl⟩ | ⟨p, here, above, found⟩ := resolveWithin_cases found
    · exact resolveWithin_of_slot here k
    · rw [resolveWithin_of_parent here above]
      exact ih found (Nat.le_of_succ_le_succ h)

/-- Resolution depends on nothing but the slots of the name and the parents. -/
theorem resolve?_congr {cs' : Contexts} (size : cs'.size = cs.size)
    (slots : ∀ j, (cs'.context j).slot? name = (cs.context j).slot? name)
    (parents : ∀ j, (cs'.context j).parent = (cs.context j).parent) (i : ContextId) :
    cs'.resolve? i name = cs.resolve? i name := by
  unfold resolve?
  rw [size]
  generalize cs.size = fuel
  induction fuel generalizing i with
  | zero => rfl
  | succ fuel ih =>
    rw [resolveWithin, resolveWithin, slots, parents]
    cases (cs.context i).slot? name with
    | some slot => rfl
    | none =>
      cases (cs.context i).parent with
      | none => rfl
      | some p => exact ih p

end

/-! ### chains -/

/-- The contexts in which the names of a context are looked up, the context itself first: each is
followed by its parent, and the last one has none. -/
inductive Chain (cs : Contexts) : ContextId → List ContextId → Prop
  | last {i : ContextId} (root : (cs.context i).parent = none) : Chain cs i [i]
  | next {i p : ContextId} {chain : List ContextId} (above : (cs.context i).parent = some p)
    (rest : Chain cs p chain) : Chain cs i (i :: chain)

/-- Every parent is older than its children. -/
def Ordered (cs : Contexts) : Prop :=
  ∀ i p, (cs.context i).parent = some p → p < i

theorem Chain.unique {cs : Contexts} {i : ContextId} {chain chain' : List ContextId}
    (h : cs.Chain i chain) (k : cs.Chain i chain') : chain = chain' := by
  induction h generalizing chain' with
  | last root =>
    cases k with
    | last _ => rfl
    | next above _ => cases root.symm.trans above
  | next above _ ih =>
    cases k with
    | last root => cases root.symm.trans above
    | next above' rest' =>
      cases above.symm.trans above'
      rw [ih rest']

/-- **Where parents are older, every chain is finite**, and no longer than there are contexts up to
its first. -/
theorem Ordered.chain {cs : Contexts} (h : cs.Ordered) (i : ContextId) :
    ∃ chain, cs.Chain i chain ∧ chain.length ≤ i + 1 := by
  induction i using Nat.strongRecOn with
  | _ i ih =>
    cases above : (cs.context i).parent with
    | none => exact ⟨[i], .last above, by simp⟩
    | some p =>
      have older := h i p above
      obtain ⟨chain, rest, short⟩ := ih p older
      exact ⟨i :: chain, .next above rest, Nat.succ_le_succ (Nat.le_trans short older)⟩

namespace Chain

variable {cs : Contexts} {i : ContextId} {chain : List ContextId} {name : String}

/-- A name is resolved in the first context of the chain that has it. -/
theorem resolveWithin (h : cs.Chain i chain) {fuel : Nat} (enough : chain.length ≤ fuel) :
    cs.resolveWithin name fuel i =
      chain.findSome? fun c => ((cs.context c).slot? name).map (Binding.mk c) := by
  induction h generalizing fuel with
  | @last i root =>
    obtain ⟨fuel, rfl⟩ : ∃ k, fuel = k + 1 := ⟨fuel - 1, by simp at enough; omega⟩
    cases here : (cs.context i).slot? name with
    | some slot => simp [resolveWithin_of_slot here, here]
    | none => simp [resolveWithin_of_root here root, here]
  | @next i p chain above rest ih =>
    obtain ⟨fuel, rfl⟩ : ∃ k, fuel = k + 1 := ⟨fuel - 1, by simp at enough; omega⟩
    cases here : (cs.context i).slot? name with
    | some slot => simp [resolveWithin_of_slot here, here]
    | none =>
      rw [resolveWithin_of_parent here above, ih (Nat.le_of_succ_le_succ enough)]
      simp [here]

theorem resolve?_eq_findSome? (h : cs.Chain i chain) (ordered : cs.Ordered) (name : String) :
    cs.resolve? i name =
      chain.findSome? fun c => ((cs.context c).slot? name).map (Binding.mk c) := by
  by_cases live : i < cs.size
  · obtain ⟨chain', h', short⟩ := ordered.chain i
    cases h.unique h'
    exact h.resolveWithin (Nat.le_trans short live)
  · -- A context that is not there has neither names nor a parent.
    have root := context_of_size_le (Nat.not_lt.1 live)
    have above : (cs.context i).parent = none := by
      rw [root]
      rfl
    have here : (cs.context i).slot? name = none := by
      rw [root]
      rfl
    cases h.unique (.last above)
    rw [resolve?, resolveWithin_of_root here above]
    simp [here]

/-- **A name resolves to its newest local in the first context of the chain that has one.** -/
theorem resolve?_eq_some_iff (h : cs.Chain i chain) (ordered : cs.Ordered) {b : Binding} :
    cs.resolve? i name = some b ↔ ∃ before after, chain = before ++ b.context :: after ∧
      (∀ c ∈ before, ∀ l ∈ (cs.context c).locals, l.name ≠ name) ∧
      (cs.context b.context).slot? name = some b.slot := by
  rw [h.resolve?_eq_findSome? ordered, List.findSome?_eq_some_iff]
  constructor
  · rintro ⟨before, c, after, rfl, here, others⟩
    obtain ⟨slot, found, rfl⟩ := Option.map_eq_some_iff.1 here
    refine ⟨before, after, rfl, fun c' member => ?_, found⟩
    exact Context.slotIn_eq_none_iff.1 (Option.map_eq_none_iff.1 (others c' member))
  · rintro ⟨before, after, rfl, others, found⟩
    refine ⟨before, b.context, after, rfl, by rw [found]; rfl, fun c' member => ?_⟩
    exact Option.map_eq_none_iff.2 (Context.slotIn_eq_none_iff.2 (others c' member))

theorem resolve?_eq_none_iff (h : cs.Chain i chain) (ordered : cs.Ordered) :
    cs.resolve? i name = none ↔ ∀ c ∈ chain, ∀ l ∈ (cs.context c).locals, l.name ≠ name := by
  rw [h.resolve?_eq_findSome? ordered, List.findSome?_eq_none_iff]
  refine forall₂_congr fun c _ => ?_
  rw [Option.map_eq_none_iff]
  exact Context.slotIn_eq_none_iff

end Chain

/-- A name resolves to a slot with a local in it. -/
theorem Ordered.lt_of_resolve? {cs : Contexts} (h : cs.Ordered) {i : ContextId} {name : String}
    {b : Binding} (resolved : cs.resolve? i name = some b) :
    b.slot < (cs.context b.context).locals.length := by
  obtain ⟨chain, leads, -⟩ := h.chain i
  obtain ⟨-, -, -, -, here⟩ := (leads.resolve?_eq_some_iff h).1 resolved
  obtain ⟨newer, l, older, split, -, -, length⟩ := Context.slotIn_eq_some_iff.1 here
  rw [split, List.length_append, List.length_cons]
  omega

/-! ### parents -/

theorem parent_set {cs : Contexts} {j : ContextId} {d : Context}
    (kept : d.parent = (cs.context j).parent) (i : ContextId) :
    (context (cs.setIfInBounds j d) i).parent = (cs.context i).parent :=
  related_set (R := fun a b => b.parent = a.parent) (fun _ => rfl) kept i

theorem parent_push {cs : Contexts} {d : Context} (older : ∀ p, d.parent = some p → p < cs.size)
    (i : ContextId) : (context (cs.push d) i).parent = (cs.context i).parent ∨
      ∀ p, (context (cs.push d) i).parent = some p → p < i := by
  by_cases last : i = cs.size
  · subst last
    rw [context_push_self]
    exact .inr older
  · rw [context_push_of_ne last]
    exact .inl rfl

theorem parent_write (cs : Contexts) (b : Binding) (v : Value) (i : ContextId) :
    ((cs.write b v).context i).parent = (cs.context i).parent :=
  related_update (R := fun a b => b.parent = a.parent) (fun _ => rfl) (by rw [Context.write_eq]) i

/-- A context keeps its parent, or is new and younger than it. -/
theorem Step.parent {cs cs' : Contexts} (h : Step cs cs') (i : ContextId) :
    (cs'.context i).parent = (cs.context i).parent ∨
      ∀ p, (cs'.context i).parent = some p → p < i := by
  rcases h.cases with ⟨c, new, rfl⟩ | ⟨j, c, change, rfl⟩
  · exact parent_push new.older i
  · exact .inl (parent_set change.parent i)

/-- **Whatever is done to contexts, parents are older than their children.** -/
theorem Reachable.ordered {cs : Contexts} (h : cs.Reachable) : cs.Ordered := by
  induction h with
  | refl =>
    intro i p above
    rw [context_of_size_le (Nat.zero_le i)] at above
    cases above
  | tail _ step ih =>
    intro i p above
    rcases step.parent i with same | older
    · exact ih i p (same ▸ above)
    · exact older p above

end Contexts

end Roteiro
