import Roteiro.Proofs.Scope.Numbering

/-!
The laws of names. In every graph of contexts that comes about by operations, from every context: to
look up a name reads the local that it stands for, and fails if it stands for none; to assign to a
name changes this local, which is seen through every name that stands for it, from every context,
and through no other; to define a name is seen where it is defined, and changes nothing for other
names (`Numbered.store_laws`).
-/

namespace Roteiro

/-! ### slots and values under a change -/

namespace Context

/-- The slot of a name depends on the names only. -/
theorem slot?_congr {a b : Context} (same : b.names = a.names) (name : String) :
    b.slot? name = a.slot? name := by
  unfold names at same
  unfold slot?
  generalize a.locals = locals at same ⊢
  generalize b.locals = locals' at same ⊢
  induction locals' generalizing locals with
  | nil =>
    rw [List.map_eq_nil_iff.1 same.symm]
  | cons l' older' ih =>
    obtain ⟨l, older, rfl, label, tail⟩ := List.map_eq_cons_iff.1 same.symm
    rw [slotIn, slotIn, ih older tail.symm, (Prod.mk.inj label).1]
    have length : older'.length = older.length := by simpa using (congrArg List.length tail).symm
    rw [length]

theorem definedHere_iff {c : Context} {name : String} :
    c.definedHere name = true ↔ ∃ l ∈ c.locals, l.name = name ∧ l.level = c.level := by
  unfold definedHere
  rw [List.any_eq_true]
  refine exists_congr fun l => and_congr_right fun _ => ?_
  rw [Bool.and_eq_true, beq_iff_eq, beq_iff_eq, and_comm]

/-- The context with one more local. -/
def addLocal (c : Context) (l : Local) : Context :=
  { c with locals := l :: c.locals }

theorem slot?_addLocal (c : Context) (l : Local) (name : String) :
    (c.addLocal l).slot? name = if l.name = name then some c.locals.length else c.slot? name :=
  rfl

/-- A new local leaves the filled slots as they are. -/
theorem valueAt_addLocal {c : Context} {slot : Nat} (filled : slot < c.locals.length) (l : Local) :
    (c.addLocal l).valueAt slot = c.valueAt slot := by
  obtain ⟨newer, l', older, split, rfl⟩ := split_of_lt filled
  have added : (c.addLocal l).locals = (l :: newer) ++ l' :: older := by
    unfold addLocal
    rw [split, List.cons_append]
  rw [valueAt_of_split split, valueAt_of_split added]

theorem valueAt_addLocal_self (c : Context) (l : Local) :
    (c.addLocal l).valueAt c.locals.length = l.value :=
  valueAt_of_split (c := c.addLocal l) (List.nil_append (l :: c.locals)).symm

end Context

namespace Contexts

section

variable {cs cs' : Contexts} {i j : ContextId} {name name' : String} {b : Binding}

theorem lookup_of_resolve? (resolved : cs.resolve? i name = some b) :
    cs.lookup i name = .ok (cs.read b) := by
  unfold lookup
  rw [resolved]

/-- What is looked up depends on nothing but what the name resolves to and the value there. -/
theorem lookup_congr (resolved : cs'.resolve? i name = cs.resolve? i name)
    (values : ∀ b, cs.resolve? i name = some b → cs'.read b = cs.read b) :
    cs'.lookup i name = cs.lookup i name := by
  unfold lookup
  rw [resolved]
  cases found : cs.resolve? i name with
  | none => rfl
  | some b =>
    dsimp only
    rw [values b found]

/-- To write changes no resolution. -/
theorem resolve?_write (cs : Contexts) (b : Binding) (v : Value) (i : ContextId) (name : String) :
    (cs.write b v).resolve? i name = cs.resolve? i name :=
  resolve?_congr (size_update _)
    (fun j => Context.slot?_congr (congrArg Shape.names (World.shape_write cs b v j)) name)
    (parent_write cs b v) i

/-! ### definitions -/

/-- The contexts with one more local in one of them. -/
def addLocal (cs : Contexts) (i : ContextId) (l : Local) : Contexts :=
  cs.setIfInBounds i ((cs.context i).addLocal l)

theorem size_addLocal (cs : Contexts) (i : ContextId) (l : Local) :
    (cs.addLocal i l).size = cs.size :=
  Array.size_setIfInBounds

theorem context_addLocal_self (live : i < cs.size) (l : Local) :
    (cs.addLocal i l).context i = (cs.context i).addLocal l :=
  context_set_self live _

theorem context_addLocal_of_ne (other : j ≠ i) (l : Local) :
    (cs.addLocal i l).context j = cs.context j :=
  context_set_of_ne other _

theorem define_of_new (fresh : ¬(cs.context i).definedHere name = true) (v : Value) :
    cs.define i name v = .ok (cs.addLocal i ⟨name, (cs.context i).level, v⟩) := by
  unfold define Context.define
  rw [if_neg fresh]
  rfl

theorem define_of_old (old : (cs.context i).definedHere name = true) (v : Value) :
    cs.define i name v = .error (.alreadyDefined name) := by
  unfold define Context.define
  rw [if_pos old]
  rfl

theorem resolve?_addLocal_of_ne (live : i < cs.size) {l : Local} (other : name ≠ l.name) :
    (cs.addLocal i l).resolve? j name = cs.resolve? j name := by
  refine resolve?_congr (size_addLocal cs i l) (fun k => ?_) (fun k => ?_) j
  · by_cases here : k = i
    · subst here
      rw [context_addLocal_self live, Context.slot?_addLocal, if_neg (Ne.symm other)]
    · rw [context_addLocal_of_ne here]
  · exact parent_set (d := (cs.context i).addLocal l) rfl k

/-- A new local leaves other names as they are, seen from every context. -/
theorem lookup_addLocal_of_ne (h : cs.Ordered) (live : i < cs.size) {l : Local}
    (other : name ≠ l.name) : (cs.addLocal i l).lookup j name = cs.lookup j name := by
  refine lookup_congr (resolve?_addLocal_of_ne live other) fun b resolved => ?_
  have filled := h.lt_of_resolve? resolved
  unfold read
  by_cases here : b.context = i
  · rw [here] at filled ⊢
    rw [context_addLocal_self live, Context.valueAt_addLocal filled]
  · rw [context_addLocal_of_ne here]

/-- A new local is seen under its name where it stands. -/
theorem lookup_addLocal_self (live : i < cs.size) (l : Local) :
    (cs.addLocal i l).lookup i l.name = .ok l.value := by
  have slot : ((cs.addLocal i l).context i).slot? l.name = some (cs.context i).locals.length := by
    rw [context_addLocal_self live, Context.slot?_addLocal, if_pos rfl]
  obtain ⟨fuel, size⟩ : ∃ k, (cs.addLocal i l).size = k + 1 := by
    rw [size_addLocal]
    exact Nat.exists_eq_add_one_of_ne_zero (Nat.ne_zero_of_lt live)
  have resolved : (cs.addLocal i l).resolve? i l.name = some ⟨i, (cs.context i).locals.length⟩ := by
    rw [resolve?, size]
    exact resolveWithin_of_slot slot fuel
  rw [lookup_of_resolve? resolved, read, context_addLocal_self live, Context.valueAt_addLocal_self]

end

end Contexts

namespace World

variable {w : World} {i : ContextId} {name : String} {b : Binding}

theorem assign_of_resolve? (resolved : w.contexts.resolve? i name = some b) (v : Value) :
    World.assign i name v w = (.ok (), (Operation.write b v).apply w) := by
  unfold World.assign onContexts Contexts.assign
  dsimp only
  rw [resolved]
  rfl

theorem assign_of_unknown (unknown : w.contexts.resolve? i name = none) (v : Value) :
    World.assign i name v w = (.error (.notDefined name), w) := by
  unfold World.assign onContexts Contexts.assign
  dsimp only
  rw [unknown]

end World

namespace Numbered

/-! ### the laws -/

/-- No context of the chain has a local of the name. -/
def Unknown (d : Numbered) (i : ContextId) (name : String) : Prop :=
  ∃ chain, d.world.contexts.Chain i chain ∧
    ∀ c ∈ chain, ∀ l ∈ (d.world.context c).locals, l.name ≠ name

/-- The context has a local of the name on its current level. -/
def Defined (d : Numbered) (i : ContextId) (name : String) : Prop :=
  ∃ l ∈ (d.world.context i).locals, l.name = name ∧ l.level = (d.world.context i).level

/-- To look up a name reads the local that it stands for, and fails if the chain, which is finite,
has none. -/
structure LookupLaw (d : Numbered) (i : ContextId) (name : String) : Prop where
  finite : ∃ chain, d.world.contexts.Chain i chain
  reads : ∀ v, (World.lookup i name d.world).1 = .ok v ↔
    ∃ id l, d.ResolvesTo i name id l ∧ l.value = v
  fails : ∀ fault, (World.lookup i name d.world).1 = .error fault ↔
    fault = .unknownName name ∧ d.Unknown i name

/-- To assign to a name changes the local that it stands for and nothing else, and so it is seen
through the names that stand for this local and through no other. It fails, and changes nothing, if
the name can not be looked up. -/
structure AssignLaw (d : Numbered) (i : ContextId) (name : String) (v : Value) : Prop where
  succeeds : (World.assign i name v d.world).1 = .ok () ↔
    ∃ u, (World.lookup i name d.world).1 = .ok u
  fails : (World.assign i name v d.world).1 ≠ .ok () →
    World.assign i name v d.world = (.error (.notDefined name), d.world)
  writes : ∀ {id l}, d.ResolvesTo i name id l → d.Writes (d.apply (.assign i name v)) id v
  seen : ∀ {id l l' j name'}, d.ResolvesTo i name id l → d.ResolvesTo j name' id l' →
    (World.lookup j name' (World.assign i name v d.world).2).1 = .ok v
  unseen : ∀ {id l j name'}, d.ResolvesTo i name id l → (∀ l', ¬d.ResolvesTo j name' id l') →
    (World.lookup j name' (World.assign i name v d.world).2).1 = (World.lookup j name' d.world).1

/-- To define a name fails, and changes nothing, if there is one on the current level. Otherwise it
is seen where it is defined, and other names are seen as they were, from every context. -/
structure DefineLaw (d : Numbered) (i : ContextId) (name : String) (v : Value) : Prop where
  fails : World.define i name v d.world = (.error (.alreadyDefined name), d.world) ↔
    d.Defined i name
  succeeds : ¬d.Defined i name → (World.define i name v d.world).1 = .ok ()
  seen : ¬d.Defined i name →
    (World.lookup i name (World.define i name v d.world).2).1 = .ok v
  unseen : ¬d.Defined i name → ∀ j, ∀ name' ≠ name,
    (World.lookup j name' (World.define i name v d.world).2).1 = (World.lookup j name' d.world).1

namespace Sound

variable {d : Numbered} (h : d.Sound)

include h

/-- A name that stands for a local reads it. -/
theorem lookup_of_resolvesTo {i : ContextId} {name : String} {id : LocalId} {l : Local}
    (stands_for : d.ResolvesTo i name id l) : d.world.contexts.lookup i name = .ok l.value := by
  obtain ⟨b, resolved, context, stands⟩ := h.resolve?_of_resolvesTo stands_for
  obtain ⟨l', found, read⟩ := h.found_of_number? stands
  rw [← context] at found
  cases found.symm.trans stands_for.found
  rw [Contexts.lookup_of_resolve? resolved, read]

theorem unknown_iff {i : ContextId} {name : String} :
    d.Unknown i name ↔ d.world.contexts.resolve? i name = none := by
  constructor
  · rintro ⟨chain, leads, absent⟩
    exact (leads.resolve?_eq_none_iff h.ordered).2 absent
  · intro unresolved
    obtain ⟨chain, leads, -⟩ := h.ordered.chain i
    exact ⟨chain, leads, (leads.resolve?_eq_none_iff h.ordered).1 unresolved⟩

theorem lookup_law (i : ContextId) (name : String) : d.LookupLaw i name := by
  refine ⟨?_, fun v => ⟨fun read => ?_, ?_⟩, fun fault => ?_⟩
  · obtain ⟨chain, leads, -⟩ := h.ordered.chain i
    exact ⟨chain, leads⟩
  · cases resolved : d.world.contexts.resolve? i name with
    | none =>
      change d.world.contexts.lookup i name = _ at read
      unfold Contexts.lookup at read
      rw [resolved] at read
      cases read
    | some b =>
      obtain ⟨n, l, -, stands_for⟩ := h.resolvesTo resolved
      exact ⟨_, l, stands_for, Except.ok.inj ((h.lookup_of_resolvesTo stands_for).symm.trans read)⟩
  · rintro ⟨id, l, stands_for, rfl⟩
    exact h.lookup_of_resolvesTo stands_for
  · rw [h.unknown_iff]
    change d.world.contexts.lookup i name = _ ↔ _
    unfold Contexts.lookup
    cases d.world.contexts.resolve? i name with
    | none => simp [eq_comm]
    | some b => simp

/-- To write to a binding is read through this binding and no other. -/
theorem read_write {b b' : Binding} {n n' : Nat} (stands : d.number? b = some n)
    (stands' : d.number? b' = some n') (v : Value) :
    (d.world.contexts.write b v).read b' = if b' = b then v else d.world.contexts.read b' := by
  obtain ⟨l, found, read⟩ := h.found_of_number? stands'
  have kept := h.numbers_apply (World.extent_write d.world b v b'.context)
  have stood : (d.apply (.write b v)).number? b' = some n' := by
    unfold number?
    rw [kept]
    exact stands'
  obtain ⟨l', found', read'⟩ := (h.apply (.write b v)).found_of_number? stood
  change (d.world.contexts.write b v).read b' = l'.value at read'
  rw [(h.writes stands v).values] at found'
  rw [read', read]
  by_cases same : b' = b
  · subst same
    obtain rfl : n' = n := Option.some.inj (stands'.symm.trans stands)
    rw [if_pos rfl, found] at found'
    rw [if_pos rfl]
    cases found'
    rfl
  · have other : (⟨b'.context, n'⟩ : LocalId) ≠ ⟨b.context, n⟩ := by
      intro both
      obtain ⟨context, rfl⟩ := LocalId.mk.inj both
      exact same (h.number?_inj stands' stands context)
    rw [if_neg other, found] at found'
    rw [if_neg same]
    cases found'
    rfl

theorem assign_law (i : ContextId) (name : String) (v : Value) : d.AssignLaw i name v := by
  refine ⟨?_, ?_, fun {id l} stands_for => ?_, fun {id l l' j name'} stands_for stands_for' => ?_,
    fun {id l j name'} stands_for apart => ?_⟩
  · change _ ↔ ∃ u, d.world.contexts.lookup i name = .ok u
    cases resolved : d.world.contexts.resolve? i name with
    | none =>
      rw [World.assign_of_unknown resolved]
      simp [Contexts.lookup, resolved]
    | some b =>
      rw [World.assign_of_resolve? resolved]
      exact ⟨fun _ => ⟨_, Contexts.lookup_of_resolve? resolved⟩, fun _ => rfl⟩
  · intro failed
    cases resolved : d.world.contexts.resolve? i name with
    | none => exact World.assign_of_unknown resolved v
    | some b => exact absurd (by rw [World.assign_of_resolve? resolved]) failed
  · obtain ⟨b, resolved, context, stands⟩ := h.resolve?_of_resolvesTo stands_for
    have done : (Operation.assign i name v).apply d.world = (Operation.write b v).apply d.world :=
      congrArg Prod.snd (World.assign_of_resolve? resolved v)
    rw [apply_congr done, show id = ⟨b.context, id.number⟩ by rw [← context]]
    exact h.writes stands v
  · obtain ⟨b, resolved, context, stands⟩ := h.resolve?_of_resolvesTo stands_for
    obtain ⟨b', resolved', context', stands'⟩ := h.resolve?_of_resolvesTo stands_for'
    obtain rfl : b = b' := h.number?_inj stands stands' (context.symm.trans context')
    rw [World.assign_of_resolve? resolved]
    change (d.world.contexts.write b v).lookup j name' = _
    rw [Contexts.lookup_of_resolve? (b := b) (by rw [Contexts.resolve?_write, resolved']),
      h.read_write stands stands, if_pos rfl]
  · obtain ⟨b, resolved, context, stands⟩ := h.resolve?_of_resolvesTo stands_for
    rw [World.assign_of_resolve? resolved]
    refine Contexts.lookup_congr (Contexts.resolve?_write _ b v j name') fun b' resolved' => ?_
    obtain ⟨n', l', stands', stands_for'⟩ := h.resolvesTo resolved'
    change (d.world.contexts.write b v).read b' = _
    rw [h.read_write stands stands', if_neg]
    rintro rfl
    rw [← context, Option.some.inj (stands'.symm.trans stands)] at stands_for'
    exact apart l' stands_for'

theorem define_law {i : ContextId} (live : i < d.world.contexts.size) (name : String) (v : Value) :
    d.DefineLaw i name v := by
  by_cases defined : (d.world.contexts.context i).definedHere name = true
  · have there : d.Defined i name := Context.definedHere_iff.1 defined
    have failed : World.define i name v d.world = (.error (.alreadyDefined name), d.world) := by
      unfold World.define World.onContexts
      dsimp only
      rw [Contexts.define_of_old defined]
    exact ⟨⟨fun _ => there, fun _ => failed⟩, (absurd there ·), (absurd there ·), (absurd there ·)⟩
  · have absent : ¬d.Defined i name := fun there => defined (Context.definedHere_iff.2 there)
    have done : World.define i name v d.world = (.ok (), { d.world with
        contexts := d.world.contexts.addLocal i ⟨name, (d.world.context i).level, v⟩ }) := by
      unfold World.define World.onContexts
      dsimp only
      rw [Contexts.define_of_new defined]
      rfl
    refine ⟨⟨fun failed => ?_, (absurd · absent)⟩, fun _ => ?_, fun _ => ?_,
      fun _ j name' other => ?_⟩
    · rw [done] at failed
      cases congrArg Prod.fst failed
    · rw [done]
    · rw [done]
      exact Contexts.lookup_addLocal_self live _
    · rw [done]
      exact Contexts.lookup_addLocal_of_ne h.ordered live other

end Sound

/-- **Names obey the laws of a store**, in every context of every graph that comes about by
operations. -/
theorem store_laws (t : Terminal) (ops : List Operation) {i : ContextId}
    (live : i < ((Numbered.around t).run ops).world.contexts.size) (name : String) (v : Value) :
    ((Numbered.around t).run ops).LookupLaw i name ∧
      ((Numbered.around t).run ops).AssignLaw i name v ∧
      ((Numbered.around t).run ops).DefineLaw i name v := by
  have sound := (Sound.around t).run ops
  exact ⟨sound.lookup_law i name, sound.assign_law i name v, sound.define_law live name v⟩

/-- A context inside another assigns to a name of the outer one, once its own local of the name was
dropped. -/
theorem store_laws_of_child :
    let d := (Numbered.around (.captured [])).run [.newRoot, .define 0 "x" .null, .newChild 0,
      .enter 1, .define 1 "x" .null, .leave 1]
    let after := World.assign 1 "x" (.boolean true) d.world
    1 < d.world.contexts.size ∧ after.1 = .ok () ∧
      d.Writes (d.apply (.assign 1 "x" (.boolean true))) ⟨0, 0⟩ (.boolean true) ∧
      (World.lookup 0 "x" after.2).1 = .ok (.boolean true) := by
  intro d after
  have live : 1 < d.world.contexts.size := by decide +kernel
  obtain ⟨looks, assigns, -⟩ := store_laws (.captured [])
    [.newRoot, .define 0 "x" .null, .newChild 0, .enter 1, .define 1 "x" .null, .leave 1] live "x"
    (.boolean true)
  have locals : d.locals 0 = [(0, ⟨"x", 1, .null⟩)] := rfl
  have dropped : (d.world.context 1).locals = [] := rfl
  have outer : d.ResolvesTo 0 "x" ⟨0, 0⟩ ⟨"x", 1, .null⟩ :=
    ⟨⟨[], [], .last rfl, by simp⟩, rfl, rfl, by simp [locals]⟩
  have inner : d.ResolvesTo 1 "x" ⟨0, 0⟩ ⟨"x", 1, .null⟩ :=
    ⟨⟨[1], [], .next rfl (.last rfl), by simp [dropped]⟩, rfl, rfl, outer.latest⟩
  exact ⟨live, assigns.succeeds.2 ⟨.null, (looks.reads _).2 ⟨_, _, inner, rfl⟩⟩,
    assigns.writes inner, assigns.seen inner outer⟩

end Numbered

end Roteiro
