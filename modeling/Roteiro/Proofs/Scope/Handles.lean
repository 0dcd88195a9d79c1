import Roteiro.Proofs.Scope.Numbering

/-!
Bindings that are kept. A binding names a slot of a context, and while it is kept the locals of the
context come and go. As long as the local that it was taken for is there, the binding reads and
writes this local and nothing else. A local is lost only to the end of its scope. From then on the
binding reads null and writes nothing, but only while its slot is vacant: as soon as the context has
as many locals again, the binding reads and writes the one that took the slot
(`Numbered.binding_follows`).
-/

namespace Roteiro

/-- A change that changes nothing in a context. -/
theorem Contexts.update_eq_self {cs : Contexts} {i : ContextId} {f : Context → Context}
    (same : f (cs.context i) = cs.context i) : cs.update i f = cs := by
  unfold update
  refine Array.ext Array.size_modify fun j live live' => ?_
  rw [Array.getElem_modify]
  split
  · next here =>
    subst here
    have there : cs.context i = cs[i] := by
      unfold context
      rw [Array.getElem?_eq_getElem live']
      rfl
    rw [← there, same]
  · rfl

namespace Numbered

/-- A binding reads null and writes nothing. -/
structure Idle (d : Numbered) (b : Binding) : Prop where
  read : d.world.contexts.read b = .null
  write : ∀ v, d.world.contexts.write b v = d.world.contexts

/-- Among some operations is the end of the scope of a local that is still there. -/
def Drops (d : Numbered) (ops : List Operation) (id : LocalId) : Prop :=
  ∃ before after l, ops = before ++ .leave id.context :: after ∧
    (d.run before).find? id = some l ∧
    l.level = ((d.run before).world.context id.context).level ∧ Context.baseLevel < l.level

/-- What a binding that was taken for a local is good for: it touches the local as long as that is
there. Afterwards it touches the newer local that took the slot, if any did. -/
structure Follows (d : Numbered) (b : Binding) (id : LocalId) (name : String) : Prop where
  kept : ∀ l, d.find? id = some l → l.name = name ∧ d.Touches b id l
  idle : d.find? id = none → d.world.extent b.context ≤ b.slot → d.Idle b
  retaken : d.find? id = none → b.slot < d.world.extent b.context →
    ∃ id' l, id'.context = id.context ∧ id.number < id'.number ∧ d.Touches b id' l

theorem idle_of_vacant {d : Numbered} {b : Binding} (vacant : d.world.extent b.context ≤ b.slot) :
    d.Idle b where
  read := Context.valueAt_of_vacant vacant
  write v := Contexts.update_eq_self (Context.write_of_vacant vacant v)

/-- A number that a context has no more, and what stands in the slot of the binding is newer. -/
structure Past (d : Numbered) (b : Binding) (n : Nat) : Prop where
  gone : n ∉ d.numbers b.context
  given : n < d.count b.context
  newer : ∀ n', d.number? b = some n' → n < n'

theorem Past.apply {d : Numbered} {b : Binding} {n : Nat} (h : d.Past b n) (op : Operation) :
    (d.apply op).Past b n where
  gone := gone_apply op h.given h.gone
  given := Nat.lt_add_right _ h.given
  newer n' stands := by
    rcases number?_apply op stands with stood | new
    · exact h.newer n' stood
    · exact Nat.lt_of_lt_of_le h.given new

theorem Past.run {d : Numbered} {b : Binding} {n : Nat} (h : d.Past b n) (ops : List Operation) :
    (d.run ops).Past b n := by
  induction ops generalizing d with
  | nil => exact h
  | cons op ops ih => exact ih (h.apply op)

namespace Sound

variable {d : Numbered} (h : d.Sound)

include h

/-- When a local is lost, the slot in which it stood is left to newer ones. -/
theorem past_of_gone (op : Operation) {b : Binding} {n : Nat} (stands : d.number? b = some n)
    (gone : n ∉ (d.apply op).numbers b.context) : (d.apply op).Past b n := by
  have given := h.given b.context n (List.mem_of_getElem? stands)
  refine ⟨gone, Nat.lt_add_right _ given, fun n' stands' => ?_⟩
  rcases number?_apply op stands' with stood | new
  · obtain rfl : n = n' := Option.some.inj (stands.symm.trans stood)
    exact absurd (List.mem_of_getElem? stands') gone
  · exact Nat.lt_of_lt_of_le given new

/-- A local stands in the slot of a binding until it is lost, and then only newer ones do. -/
theorem stands_or_past {b : Binding} {n : Nat} (stands : d.number? b = some n)
    (ops : List Operation) : (d.run ops).number? b = some n ∨ (d.run ops).Past b n := by
  induction ops generalizing d with
  | nil => exact .inl stands
  | cons op ops ih =>
    by_cases filled : b.slot < (op.apply d.world).extent b.context
    · exact ih (h.apply op) (number?_apply_of_lt op stands filled)
    · have gone := h.gone_of_le op stands (Nat.not_lt.1 filled)
      exact .inr ((h.past_of_gone op stands gone).run ops)

/-- **What becomes of a local in the long run**: it is still there, under its name, or it was lost
to the end of its scope. -/
theorem find?_run {id : LocalId} {l : Local} (found : d.find? id = some l) (ops : List Operation) :
    (∃ l', (d.run ops).find? id = some l' ∧ l'.name = l.name) ∨
      (d.run ops).find? id = none ∧ d.Drops ops id := by
  induction ops generalizing d l with
  | nil => exact .inl ⟨l, found, rfl⟩
  | cons op ops ih =>
    rcases h.find?_apply op found with ⟨v, kept⟩ | ⟨lost, rfl, level, above⟩
    · rcases ih (h.apply op) kept with there | ⟨lost, before, after, l', rfl, found', level, above⟩
      · exact .inl there
      · exact .inr ⟨lost, op :: before, after, l', rfl, found', level, above⟩
    · obtain ⟨-, older, -, stands⟩ := number?_of_found found
      have gone := (h.apply _).find?_eq_none_iff.1 lost
      have still := ((h.past_of_gone _ stands gone).run ops).gone
      exact .inr ⟨(((h.apply _).run ops).find?_eq_none_iff).2 still,
        [], ops, l, rfl, found, level, above⟩

theorem follows {b : Binding} {n : Nat} {name : String}
    (slot : d.number? b = some n ∨ d.Past b n)
    (named : ∀ l, d.find? ⟨b.context, n⟩ = some l → l.name = name) :
    d.Follows b ⟨b.context, n⟩ name where
  kept l found := by
    refine ⟨named l found, ?_⟩
    rcases slot with stands | past
    · obtain ⟨l', touches⟩ := h.touches stands
      obtain rfl : l' = l := Option.some.inj (touches.found.symm.trans found)
      exact touches
    · cases (h.find?_eq_none_iff.2 past.gone).symm.trans found
  idle _ vacant := idle_of_vacant vacant
  retaken lost filled := by
    obtain ⟨n', stands'⟩ := h.number?_of_filled filled
    obtain ⟨l, touches⟩ := h.touches stands'
    refine ⟨⟨b.context, n'⟩, l, rfl, ?_, touches⟩
    rcases slot with stands | past
    · exact absurd (List.mem_of_getElem? stands) (h.find?_eq_none_iff.1 lost)
    · exact past.newer n' stands'

end Sound

/-- **A binding follows the local that it was taken for**, whatever is done after it was taken, and
the local is lost to nothing but the end of its scope. -/
theorem binding_follows (t : Terminal) (ops later : List Operation) {i : ContextId} {name : String}
    {b : Binding}
    (resolved : ((Numbered.around t).run ops).world.contexts.resolve? i name = some b) :
    ∃ id l, ((Numbered.around t).run ops).ResolvesTo i name id l ∧
      ((((Numbered.around t).run ops).run later).find? id = none →
        ((Numbered.around t).run ops).Drops later id) ∧
      (((Numbered.around t).run ops).run later).Follows b id name := by
  have h := (Sound.around t).run ops
  obtain ⟨n, l, stands, stands_for⟩ := h.resolvesTo resolved
  have fate := h.find?_run stands_for.found later
  refine ⟨⟨b.context, n⟩, l, stands_for, fun lost => ?_,
    (h.run later).follows (h.stands_or_past stands later) fun l' found => ?_⟩
  · rcases fate with ⟨l', found, -⟩ | ⟨-, drops⟩
    · cases lost.symm.trans found
    · exact drops
  · rcases fate with ⟨l'', found', same⟩ | ⟨lost, -⟩
    · cases found.symm.trans found'
      exact same.trans stands_for.named
    · cases lost.symm.trans found

private theorem resolvesTo_in_scope :
    ((Numbered.around (.captured [])).run [.newRoot, .enter 0, .define 0 "x" .null]).ResolvesTo
      0 "x" ⟨0, 0⟩ ⟨"x", 2, .null⟩ := by
  refine ⟨⟨[], [], .last rfl, List.forall_mem_nil _⟩, rfl, rfl, fun e member _ => ?_⟩
  rw [List.mem_singleton.1 (show e ∈ [(0, ⟨"x", 2, .null⟩)] from member)]

/-- The local was dropped and another one took its slot. -/
theorem binding_follows_of_retaken :
    let d := (Numbered.around (.captured [])).run [.newRoot, .enter 0, .define 0 "x" .null]
    let later : List Operation := [.leave 0, .define 0 "y" (.boolean true)]
    d.world.contexts.resolve? 0 "x" = some ⟨0, 0⟩ ∧ ∃ id l, d.ResolvesTo 0 "x" id l ∧
      d.Drops later id ∧ ∃ id' l', id.number < id'.number ∧ l'.name = "y" ∧
        (d.run later).Touches ⟨0, 0⟩ id' l' := by
  intro d later
  have resolved : d.world.contexts.resolve? 0 "x" = some ⟨0, 0⟩ := rfl
  obtain ⟨id, l, stands_for, dropped, follows⟩ :=
    binding_follows (.captured []) [.newRoot, .enter 0, .define 0 "x" .null] later resolved
  obtain rfl : id = ⟨0, 0⟩ :=
    ((Sound.around _).run _).resolvesTo_unique stands_for resolvesTo_in_scope
  have lost : (d.run later).find? ⟨0, 0⟩ = none :=
    (((Sound.around _).run _).run _).find?_eq_none_iff.2 (by decide +kernel)
  have filled : 0 < (d.run later).world.extent 0 := by decide +kernel
  obtain ⟨⟨c, n⟩, l', rfl, newer, touches⟩ := follows.retaken lost filled
  obtain ⟨front, back, split, -⟩ := number?_of_found touches.found
  have there : l' ∈ ((d.run later).world.context 0).locals := by
    rw [split]
    exact List.mem_append_right front List.mem_cons_self
  have named : l'.name = "y" := by
    rw [List.mem_singleton.1 (show l' ∈ [⟨"y", 1, .boolean true⟩] from there)]
  exact ⟨resolved, _, l, stands_for, dropped lost, _, l', newer, named, touches⟩

/-- A binding is not idle for good once its local was dropped. -/
theorem dropped_binding_not_idle :
    ¬∀ (t : Terminal) (ops later : List Operation) (i : ContextId) (name : String) (b : Binding)
      (id : LocalId) (l : Local),
      ((Numbered.around t).run ops).world.contexts.resolve? i name = some b →
      ((Numbered.around t).run ops).ResolvesTo i name id l →
      (((Numbered.around t).run ops).run later).find? id = none →
      (((Numbered.around t).run ops).run later).Idle b := by
  intro idle
  have read := (idle _ _ [.leave 0, .define 0 "y" (.boolean true)] 0 "x" ⟨0, 0⟩ _ _ rfl
    resolvesTo_in_scope rfl).read
  cases read

end Numbered

end Roteiro
